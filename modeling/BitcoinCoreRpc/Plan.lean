/-
This file proves the rules of a walk written as a program: loops over the members of an
object and over the items of an array, values kept and values skipped, and a state
carried through them.

A step digests a relation when what it consumes is one value, white space ahead of it,
that the relation holds of. There is one rule for each of the methods a walk calls, and
the loop digests the relation that takes the slots of a container one after another. A
plan is a walk as data, so that what it does to a stream and what it makes of a json value
are two readings of one thing.
-/

import BitcoinCoreRpc.CallStream

namespace BitcoinCoreRpc

open JsonText Steps

/-! ### The loop and the plans -/

section Loop

variable {σ : Type} (py : Interpreter) (where_ : Str) (kind : Kind)
  (walk : Nat → Option Str → σ → StreamStep σ)

/-- The rounds of `for name in stream.members():` and of `for index in stream.items():`, from
behind what the iterator yielded. -/
def slotsLoop : Nat → Nat → Option (Option Str) → σ → StreamStep σ
  | _, _, none, state => return state
  | 0, _, some _, _ => fail outOfRounds
  | fuel + 1, index, some found, state => do
    let state ← walk index found state
    slotsLoop fuel (index + 1) (← resume py where_ kind) state

/-- A loop over a container. -/
def slots (state : σ) : StreamStep σ := do
  let first ← enter py where_ kind
  slotsLoop py where_ kind walk (← read).rounds 0 first state

end Loop

/-- A walk as a program over a state. -/
inductive Plan (σ : Type)
  | skip
  | value (limit : Int) (take : Json → σ → σ)
  | each (kind : Kind) (slot : Nat → Option Str → Plan σ)
  | given (on : σ → Plan σ)
  /-- What is done next told from the first character of the value. -/
  | peek (on : Shape → Plan σ)

namespace Plan

variable {σ : Type}

/-- The walk of a plan. -/
def walk (py : Interpreter) (where_ : Str) : Plan σ → σ → StreamStep σ
  | skip, state => do
    BitcoinCoreRpc.skip py where_
    return state
  | value limit take, state => do
    let json ← BitcoinCoreRpc.value py where_ limit
    return take json state
  | each kind slot, state =>
    slots py where_ kind (fun index found => (slot index found).walk py where_) state
  | given on, state => (on state).walk py where_ state
  | peek on, state => do
    let octet ← BitcoinCoreRpc.peek where_
    (on (shapeOf octet)).walk py where_ state

/-- Every limit a plan keeps a value under satisfies `holds`. -/
def Limits (holds : Int → Prop) : Plan σ → Prop
  | skip => True
  | value limit _ => holds limit
  | each _ slot => ∀ index found, (slot index found).Limits holds
  | given on => ∀ state, (on state).Limits holds
  | peek on => ∀ shape, (on shape).Limits holds

end Plan

/-! ### The slots of a container -/

/-- What an iterator yields ahead of a value. -/
def Called (py : Interpreter) {kind : Kind} (head : Head kind) (found : Option Str) : Prop :=
  match head with
  | .item _ => found = none
  | .member _ pieces _ _ => NameIs py pieces found

/-- A value is a container, and these are its slots in order. -/
inductive HasSlots : {kind : Kind} → Value → List (Head kind × Value) → Prop
  | empty (kind : Kind) (pad : Blank) : @HasSlots kind (.empty kind pad) []
  | full {kind : Kind} (head : Head kind) (value : Value) (tail : Tail kind) :
    HasSlots (.full kind head value tail) ((head, value) :: tail.slots)

/-- The slots of a container, taken one after another. -/
inductive Folds (py : Interpreter) {σ : Type} (takes : Nat → Option Str → Value → σ → σ → Prop)
    {kind : Kind} : Nat → List (Head kind × Value) → σ → σ → Prop
  | nil (index : Nat) (state : σ) : Folds py takes index [] state state
  | cons {index : Nat} {head : Head kind} {value : Value} {slots : List (Head kind × Value)}
    {found : Option Str} {state between final : σ} (called : Called py head found)
    (first : takes index found value state between)
    (rest : Folds py takes (index + 1) slots between final) :
    Folds py takes index ((head, value) :: slots) state final

/-- What a plan makes of a state over a value. -/
def Plan.Takes (py : Interpreter) {σ : Type} : Plan σ → Value → σ → σ → Prop
  | .skip, tree, state, final => Skipped py tree ∧ final = state
  | .value limit take, tree, state, final =>
    ∃ json, KeptAs py limit tree json ∧ final = take json state
  | .each kind slot, tree, state, final =>
    ∃ slots : List (Head kind × Value), HasSlots tree slots ∧
      Folds py (fun index found => (slot index found).Takes py) 0 slots state final
  | .given on, tree, state, final => (on state).Takes py tree state final
  | .peek on, tree, state, final => (on (valueShape tree)).Takes py tree state final

/-! ### Steps that carry a relation -/

section Rules

variable {α σ : Type} {py : Interpreter} {where_ : Str} {kind : Kind} {stream after : Stream}

/-- A step consumes one value, white space ahead of it, and answers as the relation says. -/
structure Digests (step : StreamStep α) (reads : Value → α → Prop) : Prop where
  sound : ∀ ⦃stream after : Stream⦄ ⦃answer : α⦄, stream.Sane → stream.kept = none →
    step stream = (.ok answer, after) → ∃ (lead : Blank) (value : Value),
      Stream.Passes stream (lead.codes ++ value.text) after ∧ reads value answer
  complete : ∀ ⦃stream : Stream⦄ ⦃lead : Blank⦄ ⦃value : Value⦄ ⦃answer : α⦄ ⦃rest : Bytes⦄,
    stream.Stands (lead.codes ++ value.text) rest → stream.kept = none → Delimits rest →
      reads value answer → ∃ after, step stream = (.ok answer, after) ∧
        Stream.Passes stream (lead.codes ++ value.text) after

theorem Digests.walkReads {step : StreamStep α} {reads : Value → α → Prop}
    (digests : Digests step reads) : WalkReads step reads := by
  intro start after answer sane unkept solid ran _ _
  obtain ⟨lead, value, passes, read⟩ := digests.sound sane unkept ran
  have nothing := no_pad (passes.unread ▸ solid)
  refine .inr ⟨value, .none, ?_, read⟩
  simpa [nothing, Blank.none] using passes

theorem Digests.walkAnswers {step : StreamStep α} {reads : Value → α → Prop}
    (digests : Digests step reads) : WalkAnswers step reads :=
  fun start value answer rest stands unkept delimits read =>
    @Digests.complete _ _ _ digests start .none value answer rest stands unkept delimits read

theorem digests_skip (py : Interpreter) (where_ : Str) (state : σ) :
    Digests (do skip py where_; return state : StreamStep σ)
      fun value final => Skipped py value ∧ final = state where
  sound stream after final sane unkept ran := by
    obtain ⟨_, skipped, skips, done⟩ := seq_eq_ok ran
    cases done
    obtain ⟨lead, value, passes, numbers, shallow⟩ := skip_eq_ok sane skips
    exact ⟨lead, value, passes, ⟨numbers, shallow⟩, rfl⟩
  complete stream lead value final rest stands unkept delimits read := by
    obtain ⟨⟨numbers, shallow⟩, rfl⟩ := read
    obtain ⟨after, skips, passes⟩ := @skip_of_stands py where_ stream lead value rest stands numbers
      (value.longest_of_delimits delimits) shallow
    refine ⟨after, ?_, passes⟩
    rw [seq_of_ok skips]
    rfl

theorem digests_value (py : Interpreter) (where_ : Str) (limit : Int) (take : Json → σ) :
    Digests (do let json ← value py where_ limit; return take json : StreamStep σ)
      fun value final => ∃ json, KeptAs py limit value json ∧ final = take json where
  sound stream after final sane unkept ran := by
    obtain ⟨json, last, values, done⟩ := seq_eq_ok ran
    cases done
    obtain ⟨lead, value, passes, numbers, shallow, fits, built⟩ := value_eq_ok sane unkept values
    exact ⟨lead, value, passes, json, ⟨⟨numbers, shallow⟩, fits, built⟩, rfl⟩
  complete stream lead value final rest stands unkept delimits read := by
    obtain ⟨json, ⟨⟨numbers, shallow⟩, fits, built⟩, rfl⟩ := read
    obtain ⟨after, values, passes⟩ := @value_of_stands py where_ stream limit lead value json rest
      stands unkept numbers delimits shallow fits built
    refine ⟨after, ?_, passes⟩
    rw [seq_of_ok values]
    rfl

/-- A step told by the first character of the value it is at. -/
theorem digests_peek {step : Shape → StreamStep α} {reads : Shape → Value → α → Prop}
    (digests : ∀ shape, Digests (step shape) (reads shape)) :
    Digests (do let octet ← peek where_; step (shapeOf octet) : StreamStep α)
      fun value => reads (valueShape value) value where
  sound stream after answer sane unkept ran := by
    obtain ⟨octet, ahead, peeks, ran⟩ := seq_eq_ok ran
    obtain ⟨lead, rest, blank, here, solid⟩ := nextOctet_eq_ok sane peeks
    obtain ⟨lead', value, passes, read⟩ :=
      (digests _).sound blank.sane (blank.kept_none unkept) ran
    have unread : ahead.unread = octet :: (rest ++ contents ahead.source) := by
      rw [Stream.unread, here, List.cons_append]
    have nothing := no_pad (passes.unread ▸ unread ▸ noBlank_cons solid)
    have told : shapeOf octet = valueShape value := by
      have tells := shapeOf_value value after.unread
      have whole := passes.unread
      rw [nothing, List.nil_append, unread] at whole
      rw [← whole] at tells
      exact Option.some.inj tells
    refine ⟨lead, value, ?_, told ▸ read⟩
    have all := blank.trans passes
    rwa [nothing, List.nil_append] at all
  complete stream lead value answer rest stands unkept delimits read := by
    obtain ⟨code, more, text, begins⟩ := value.text_eq_cons
    obtain ⟨ahead, _, peeks, blank, _⟩ := @nextOctet_of_stands where_ stream lead code (more ++ rest)
      (by simpa [text] using stands.front) begins.ne.1
    have stands' := blank.stands stands
    have told : shapeOf code = valueShape value := by
      have tells := shapeOf_value value []
      rw [text] at tells
      exact Option.some.inj tells
    obtain ⟨after, ran, passes⟩ := @Digests.complete _ _ _ (digests (valueShape value)) ahead .none
      value answer rest stands' (blank.kept_none unkept) delimits read
    refine ⟨after, ?_, blank.trans passes⟩
    rw [peek, seq_of_ok peeks, told]
    exact ran

/-! ### Loops -/

/-- A head is called what its entry yields. -/
theorem Yields.called {taken : Entry kind} {found : Option Str} (yields : Yields py taken found)
    (lead : Blank) : Called py (taken.head lead) found := by
  cases taken with
  | item => exact yields
  | member pad pieces gap => exact yields

theorem exists_entry (head : Head kind) :
    ∃ (taken : Entry kind) (lead : Blank), head.text = taken.text ++ lead.codes ∧
      ∀ found : Option Str, Called py head found → Yields py taken found := by
  cases head with
  | item pad => exact ⟨.item, pad, rfl, fun _ => id⟩
  | member pad pieces gap lead =>
    exact ⟨.member pad pieces gap, lead, by simp [Head.text, Entry.text], fun _ => id⟩

/-- White space ahead of what an iterator consumed, and behind it, is of the head. -/
theorem exists_head (inner : Blank) (taken : Entry kind) (lead : Blank) {found : Option Str}
    (yields : Yields py taken found) :
    ∃ head : Head kind, head.text = inner.codes ++ taken.text ++ lead.codes ∧
      Called py head found := by
  cases taken with
  | item => exact ⟨.item (inner.append lead), by simp [Head.text, Entry.text, Blank.append], yields⟩
  | member pad pieces gap =>
    exact ⟨.member (inner.append pad) pieces gap lead,
      by simp [Head.text, Entry.text, Blank.append], yields⟩

/-- An array with items is entered, up to the first. -/
theorem enter_of_item {pad front : Blank} {code : Nat} {rest : Bytes} (solid : isBlank code = false)
    (other : code ≠ Kind.array.closer)
    (stands : stream.Stands (pad.codes ++ Kind.array.opener :: front.codes) (code :: rest)) :
    ∃ after, enter py where_ .array stream = (.ok (some none), after) ∧
      Stream.Consumes stream (pad.codes ++ Kind.array.opener :: front.codes) after ∧
        after.open_ = stream.open_ + 1 := by
  have split : pad.codes ++ Kind.array.opener :: front.codes =
      pad.codes ++ [Kind.array.opener] ++ front.codes := by simp
  rw [split] at stands ⊢
  obtain ⟨entered, expects, opens⟩ :=
    @expect_of_stands where_ stream pad Kind.array.opener _ stands.front rfl
  obtain ⟨ahead, _, looks, blank, _⟩ :=
    @nextOctet_of_stands where_ entered front code rest (opens.stands stands) solid
  refine ⟨ahead.moved 1, ?_, (opens.trans blank).toConsumes.moved, ?_⟩
  · rw [enter, seq_of_ok expects, seq_of_ok looks]
    exact branch_of_not other
  · show ahead.open_ + 1 = _
    rw [blank.open_, opens.open_]

/-- A container with slots is entered, up to the first value or the white space ahead of it. -/
theorem enter_of_slot {pad : Blank} {head : Head kind} {value : Value} {found : Option Str}
    {rest : Bytes} (unkept : stream.kept = none) (called : Called py head found)
    (stands : stream.Stands (pad.codes ++ kind.opener :: head.text) (value.text ++ rest)) :
    ∃ (after : Stream) (text : Bytes) (lead : Blank),
      enter py where_ kind stream = (.ok (some found), after) ∧
      pad.codes ++ kind.opener :: head.text = text ++ lead.codes ∧
      Stream.Consumes stream text after ∧ after.open_ = stream.open_ + 1 := by
  cases head with
  | item front =>
    obtain ⟨code, more, text, begins⟩ := value.text_eq_cons
    rw [text] at stands
    obtain ⟨after, enters, opened, counted⟩ := @enter_of_item py where_ stream pad front code
      (more ++ rest) begins.ne.1 (begins.ne.2.1 _) stands
    cases called
    exact ⟨after, _, .none, enters, (List.append_nil _).symm, opened, counted⟩
  | member front pieces gap lead =>
    have texts : pad.codes ++ Kind.object.opener :: (Head.member front pieces gap lead).text =
        pad.codes ++ Kind.object.opener :: (Blank.none.codes ++ (Entry.member front pieces gap).text) ++
          lead.codes := by
      simp [Head.text, Entry.text, Blank.none]
    rw [texts] at stands
    obtain ⟨after, enters, opened, counted⟩ := @enter_of_object py where_ stream pad .none
      (.member front pieces gap) found _ unkept called stands.front
    exact ⟨after, _, lead, enters, texts, opened, counted⟩

section Looping

variable {walk : Nat → Option Str → σ → StreamStep σ}
  {takes : Nat → Option Str → Value → σ → σ → Prop}

/-- The loop consumed the rest of a container, from behind what a slot of it yielded. -/
theorem slotsLoop_eq_ok (digests : ∀ index found state,
      Digests (walk index found state) fun value final => takes index found value state final)
    {fuel index : Nat} {found : Option Str} {state final : σ} (sane : stream.Sane)
    (unkept : stream.kept = none)
    (ran : slotsLoop py where_ kind walk fuel index (some found) state stream = (.ok final, after)) :
    ∃ (lead : Blank) (value : Value) (tail : Tail kind),
      Stream.Consumes stream (lead.codes ++ value.text ++ tail.text) after ∧
      after.open_ = stream.open_ - 1 ∧
      ∀ head : Head kind, Called py head found →
        Folds py takes index ((head, value) :: tail.slots) state final := by
  induction fuel generalizing stream found state index with
  | zero => cases ran
  | succ fuel inductionHypothesis =>
    obtain ⟨state', between, walks, ran⟩ := seq_eq_ok ran
    obtain ⟨next, resumed, resumes, ran⟩ := seq_eq_ok ran
    obtain ⟨lead, value, consumed, taken_⟩ := (digests index found state).sound sane unkept walks
    have unkept' := consumed.kept_none unkept
    rcases resume_eq_ok consumed.sane unkept' resumes with
      ⟨rfl, pad, left, closed⟩ | ⟨yielded, pad, taken, rfl, goes, yields⟩
    · have last : state' = final ∧ resumed = after := by
        cases fuel <;> cases ran <;> exact ⟨rfl, rfl⟩
      obtain ⟨rfl, rfl⟩ := last
      refine ⟨lead, value, .close pad, consumed.toConsumes.trans left, ?_, fun head called =>
        .cons called taken_ (.nil _ _)⟩
      rw [closed, consumed.open_]
    · obtain ⟨lead', value', tail, rest, closed, folds⟩ :=
        inductionHypothesis goes.sane (goes.kept_none unkept') ran
      refine ⟨lead, value, .more pad (taken.head lead') value' tail, ?_, ?_, fun head called =>
        .cons called taken_ (folds _ (yields.called lead'))⟩
      · have all := (consumed.toConsumes.trans goes.toConsumes).trans rest
        simpa [Tail.text, Entry.head_text] using all
      · rw [closed, goes.open_, consumed.open_]

theorem called_unique {head : Head kind} {first second : Option Str}
    (called : Called py head first) (other : Called py head second) : first = second := by
  cases head with
  | item pad => exact Eq.trans called (Eq.symm other)
  | member pad pieces gap lead => exact nameIs_unique called other

theorem Folds.exists_called {index : Nat} {head : Head kind} {value : Value}
    {slots : List (Head kind × Value)} {state final : σ}
    (folds : Folds py takes index ((head, value) :: slots) state final) :
    ∃ found, Called py head found := by
  cases folds with | cons called _ _ => exact ⟨_, called⟩

/-- The loop takes the slots of a container. -/
theorem slotsLoop_of_stands (digests : ∀ index found state,
      Digests (walk index found state) fun value final => takes index found value state final) :
    (tail : Tail kind) → ∀ {stream : Stream} {lead : Blank} {head : Head kind} {value : Value}
      {found : Option Str} {state final : σ} {index fuel : Nat} {rest : Bytes},
      stream.Stands (lead.codes ++ value.text ++ tail.text) rest → stream.kept = none →
      Called py head found → Folds py takes index ((head, value) :: tail.slots) state final →
      tail.text.length ≤ fuel →
      ∃ after, slotsLoop py where_ kind walk fuel index (some found) state stream =
          (.ok final, after) ∧
        Stream.Consumes stream (lead.codes ++ value.text ++ tail.text) after
  | .close pad, stream, lead, head, value, found, state, final, index, fuel, rest, stands, unkept,
    called, folds, enough => by
    obtain ⟨fuel, rfl⟩ : ∃ rounds, fuel = rounds + 1 :=
      Nat.exists_eq_succ_of_ne_zero (by simp [Tail.text] at enough; omega)
    cases folds with | cons called' first others =>
    obtain rfl := called_unique called called'
    obtain ⟨between, walks, consumed⟩ := (digests index found state).complete stands.front unkept
      (delimits_tail (.close pad) rest) first
    obtain ⟨after, resumes, closed⟩ := @resume_of_close py where_ between kind pad rest
      (consumed.stands stands)
    cases others
    refine ⟨after, ?_, consumed.toConsumes.trans closed⟩
    rw [slotsLoop, seq_of_ok walks, seq_of_ok resumes]
    cases fuel <;> rfl
  | .more pad next value' tail, stream, lead, head, value, found, state, final, index, fuel, rest,
    stands, unkept, called, folds, enough => by
    obtain ⟨fuel, rfl⟩ : ∃ rounds, fuel = rounds + 1 :=
      Nat.exists_eq_succ_of_ne_zero (by simp [Tail.text] at enough; omega)
    cases folds with | cons called' first others =>
    obtain rfl := called_unique called called'
    obtain ⟨between, walks, consumed⟩ := (digests index found state).complete stands.front unkept
      (delimits_tail (.more pad next value' tail) rest) first
    obtain ⟨found', next_⟩ := others.exists_called
    obtain ⟨taken, lead', text, yields⟩ := @exists_entry py kind next
    have texts : (Tail.more pad next value' tail).text =
        pad.codes ++ 0x2C :: taken.text ++ (lead'.codes ++ value'.text ++ tail.text) := by
      simp [Tail.text, text]
    rw [texts] at stands ⊢
    have stands' := consumed.stands stands
    have unkept' := consumed.kept_none unkept
    obtain ⟨resumed, resumes, goes⟩ := @resume_of_more py where_ between kind pad taken found' _
      unkept' (yields _ next_) stands'.front
    have shorter := congrArg List.length texts
    simp only [List.length_append, List.length_cons] at shorter
    obtain ⟨after, loops, consumed'⟩ := slotsLoop_of_stands digests tail (goes.stands stands')
      (goes.kept_none unkept') next_ others (show tail.text.length ≤ fuel by omega)
    refine ⟨after, ?_, consumed.toConsumes.trans (goes.toConsumes.trans consumed')⟩
    rw [slotsLoop, seq_of_ok walks, seq_of_ok resumes]
    exact loops

/-- The loop over a container digests the relation that takes its slots in order. -/
theorem digests_slots (digests : ∀ index found state,
      Digests (walk index found state) fun value final => takes index found value state final)
    (state : σ) :
    Digests (slots py where_ kind walk state) fun value final =>
      ∃ slots : List (Head kind × Value), HasSlots value slots ∧ Folds py takes 0 slots state final where
  sound stream after final sane unkept ran := by
    obtain ⟨first, entered, enters, ran⟩ := seq_eq_ok ran
    obtain ⟨_, _, ⟨⟩, ran⟩ := seq_eq_ok ran
    rcases enter_eq_ok sane unkept enters with
      ⟨rfl, lead, inner, empty⟩ | ⟨yielded, lead, inner, taken, rfl, opened, counted, yields⟩
    · unfold slotsLoop at ran
      cases ran
      exact ⟨lead, .empty kind inner, empty, [], .empty kind inner, .nil _ _⟩
    · obtain ⟨lead', value, tail, rest, closed, folds⟩ :=
        slotsLoop_eq_ok digests opened.sane (opened.kept_none unkept) ran
      obtain ⟨head, text, called⟩ := exists_head inner taken lead' yields
      refine ⟨lead, .full kind head value tail, ⟨?_, ?_⟩, _, .full head value tail, folds head called⟩
      · have all := opened.trans rest
        simpa [Value.text, text] using all
      · rw [closed, counted]
        omega
  complete stream lead value final rest stands unkept delimits read := by
    obtain ⟨slots, holds, folds⟩ := read
    cases holds with
    | empty inner =>
      obtain ⟨entered, enters, empty⟩ := @enter_of_empty py where_ stream kind lead inner rest stands
      cases folds
      refine ⟨entered, ?_, empty⟩
      rw [BitcoinCoreRpc.slots, seq_of_ok enters, seq_read]
      unfold slotsLoop
      rfl
    | full head value tail =>
      obtain ⟨found, called⟩ := folds.exists_called
      have texts : lead.codes ++ (Value.full kind head value tail).text =
          lead.codes ++ kind.opener :: head.text ++ (value.text ++ tail.text) := by
        simp [Value.text]
      rw [texts] at stands ⊢
      obtain ⟨entered, text, front, enters, split, opened, counted⟩ :=
        @enter_of_slot py where_ kind stream lead head value found (tail.text ++ rest) unkept called
          (by simpa using stands.front)
      rw [split, List.append_assoc, ← List.append_assoc front.codes] at stands ⊢
      have stands' := opened.stands stands
      have unkept' := opened.kept_none unkept
      have enough : tail.text.length ≤ entered.rounds := by
        have := congrArg List.length stands'.unread
        simp only [List.length_append] at this
        unfold Stream.rounds
        omega
      obtain ⟨after, loops, rest_⟩ :=
        slotsLoop_of_stands digests tail stands' unkept' called folds enough
      obtain ⟨_, _, _, _, closed, _⟩ := slotsLoop_eq_ok digests opened.sane unkept' loops
      refine ⟨after, ?_, opened.trans rest_, ?_⟩
      · rw [BitcoinCoreRpc.slots, seq_of_ok enters, seq_read]
        exact loops
      · rw [closed, counted]
        omega

section Proper

variable {beyond : Exc → Prop} {document : Bytes}

/-- A resumption consumed the octet past the value, kept or not. -/
theorem resume_shorter {found : Option (Option Str)} (ready : stream.Ready document)
    (ran : resume py where_ kind stream = (.ok found, after)) :
    after.unread.length < stream.unread.length := by
  obtain ⟨octet, ahead, looks, ran⟩ := seq_eq_ok ran
  obtain ⟨pad, rest, blank, here, _⟩ := nextOctet_eq_ok ready.sane looks
  have ready' := (@nextOctet_proper (fun _ => False) where_ document stream ready).ready ready looks
  obtain ⟨_, left, takes, onward⟩ := seq_eq_ok ran
  have one := blank.trans (@advance_eq_ok where_ ahead left blank.sane [octet] rest here takes).1
  have ready'' := (@advance_proper (fun _ => False) where_ document ahead 1 ready'
    (by rw [here]; exact Nat.succ_pos _)).ready ready' takes
  have less : left.unread.length < stream.unread.length := by
    rw [one.unread]
    simp only [List.length_append, List.length_cons, List.length_nil]
    omega
  split_ifs at onward
  · obtain ⟨_, _, changes, done⟩ := seq_eq_ok onward
    cases changes
    cases done
    exact less
  · cases onward
  · obtain ⟨yielded, final, slots, done⟩ := seq_eq_ok onward
    cases done
    exact ((@slot_proper (fun _ => False) py where_ document left kind ready'').fewer slots).trans_lt
      less

theorem slotsLoop_proper
    (walks : ∀ index found state, WalkProper beyond where_ (walk index found state))
    {fuel index : Nat} (found : Option (Option Str)) (state : σ) (ready : stream.Ready document)
    (enough : stream.unread.length < fuel) :
    Proper beyond where_ document stream
      (slotsLoop py where_ kind walk fuel index found state stream) := by
  induction fuel generalizing stream found state index with
  | zero => cases enough
  | succ fuel inductionHypothesis =>
    cases found with
    | none => exact .pure _ ready
    | some found =>
      have first := walks index found state ready
      refine first.seq ready fun state' between ran ready' => ?_
      refine (resume_proper ready').seq ready' fun next resumed resumes ready'' => ?_
      have less := resume_shorter ready' resumes
      have fewer := first.fewer ran
      exact inductionHypothesis next state' ready'' (by omega)

theorem slots_proper
    (walks : ∀ index found state, WalkProper beyond where_ (walk index found state)) (state : σ) :
    WalkProper beyond where_ (slots py where_ kind walk state) := by
  intro document stream ready
  refine (enter_proper ready).seq ready fun first entered _ ready' => ?_
  refine Proper.seq ready' (.pure _ ready') ?_
  rintro _ _ ⟨⟩ _
  refine slotsLoop_proper walks first state ready' ?_
  unfold Stream.rounds
  omega

end Proper

end Looping

/-! ### Plans -/

/-- A plan's walk digests what the plan takes. -/
theorem Plan.digests (py : Interpreter) (where_ : Str) (plan : Plan σ) (state : σ) :
    Digests (plan.walk py where_ state) fun value final => plan.Takes py value state final := by
  induction plan generalizing state with
  | skip => exact digests_skip py where_ state
  | value limit take => exact digests_value py where_ limit fun json => take json state
  | each kind slot inductionHypothesis =>
    exact digests_slots (fun index found state => inductionHypothesis index found state) state
  | given on inductionHypothesis => exact inductionHypothesis state state
  | peek on inductionHypothesis => exact digests_peek fun shape => inductionHypothesis shape state

/-- A plan that keeps nothing under a negative limit refuses as the stream does. -/
theorem Plan.proper (deep : maxStreamDepth ≤ py.nesting) (plan : Plan σ)
    (limits : plan.Limits (0 ≤ ·)) (state : σ) :
    WalkProper (fun _ => False) where_ (plan.walk py where_ state) := by
  induction plan generalizing state with
  | skip =>
    exact fun document stream ready => (skip_proper ready).seq ready fun _ _ _ ready' => .pure _ ready'
  | value limit take =>
    intro document stream ready
    have values := @value_proper (fun _ => False) py where_ document stream limit
      (fun negative => absurd negative (not_lt.mpr limits))
      (fun shallow => absurd shallow (not_lt.mpr deep)) ready
    exact values.seq ready fun _ _ _ ready' => .pure _ ready'
  | each kind slot inductionHypothesis =>
    exact slots_proper (fun index found state =>
      inductionHypothesis index found (limits index found) state) state
  | given on inductionHypothesis => exact inductionHypothesis state (limits state) state
  | peek on inductionHypothesis =>
    intro document stream ready
    refine (nextOctet_proper ready).seq ready fun octet ahead _ ready' => ?_
    exact inductionHypothesis (shapeOf octet) (limits _) state ready'

end Rules

end BitcoinCoreRpc
