/-
This file proves that `call_stream` reads a reply as `call` reads it, a value or nothing
of it kept.

A reply that is read is one `json.loads` parses, and what is said of the members kept is
what is said of its dict. The other way round a reply that `call` answers is read
wherever the bounds of the reader allow: no long number, no deep member, no name of the
four given twice, and the envelope within its limit. And a refusal of the reader is a
`FetchError`, whatever the body, so that nothing else can come of a body that is none.
-/

import BitcoinCoreRpc.StreamedCall

namespace BitcoinCoreRpc

open JsonText Steps

/-! ### What a refusal of a reply is -/

section Refusals

variable {α : Type} {beyond : Exc → Prop} {py : Interpreter} {where_ : Str} {document : Bytes}
  {walk : StreamStep α} {maxBodySize : Int} {stream after : Stream}

/-- A walk that ends properly, answered or refused. -/
def WalkProper (beyond : Exc → Prop) (where_ : Str) (walk : StreamStep α) : Prop :=
  ∀ ⦃document : Bytes⦄ ⦃stream : Stream⦄, stream.Ready document →
    Proper beyond where_ document stream (walk stream)

/-- What a step consumed is no longer to be read. -/
theorem Proper.fewer {step : StreamStep α} {answer : α}
    (proper : Proper beyond where_ document stream (step stream))
    (ran : step stream = (.ok answer, after)) : after.unread.length ≤ stream.unread.length := by
  rw [ran] at proper
  obtain ⟨text, follows⟩ := proper.moves.follows
  rw [follows.unread (by rintro ⟨⟩), List.length_append]
  exact Nat.le_add_left _ _

/-- A read of nothing leaves a stream as it was, where all of it arrives. -/
theorem readNothing_of_complete (complete : Complete stream.source) :
    readNothing stream = (.ok (), stream) := by
  obtain ⟨source, _, _, _, _, _, _, _, _, _⟩ := stream
  cases source with
  | nil => rfl
  | cons arrival rest =>
    cases arrival with
    | octets first more => rfl
    | failure e => exact absurd rfl (complete _ List.mem_cons_self e)

theorem walked_proper (walks : WalkProper beyond where_ walk) (ready : stream.Ready document) :
    Proper beyond where_ document stream (walked where_ walk stream) := by
  refine (nextOctet_proper ready).seq ready fun _ start _ ready' => ?_
  refine Proper.seq ready' (.pure _ ready') ?_
  rintro _ _ ⟨⟩ _
  refine (walks ready').seq ready' fun answer stopped _ ready'' => ?_
  have still : Proper beyond where_ document stopped (readNothing stopped) := by
    rw [readNothing_of_complete ready''.complete]
    exact .pure _ ready''
  refine still.seq ready'' fun _ last _ ready₃ => ?_
  refine Proper.seq ready₃ (.pure _ ready₃) ?_
  rintro _ _ ⟨⟩ _
  split_ifs
  · exact .fail (.nameless (by decide +kernel))
  · exact .pure _ ready₃

theorem skipped_proper (ready : stream.Ready document) (kept : Kept α) :
    Proper beyond where_ document stream
      ((do skip py where_; return kept : StreamStep (Kept α)) stream) :=
  (skip_proper ready).seq ready fun _ _ _ ready' => .pure _ ready'

theorem member_proper (walks : WalkProper beyond where_ walk)
    (unfit : ∀ e, (maxBodySize < 0 ∨ py.nesting < maxStreamDepth) → beyond e) (found : Option Str)
    (kept : Kept α) (ready : stream.Ready document) :
    Proper beyond where_ document stream (member py where_ walk maxBodySize found kept stream) := by
  cases found with
  | none => exact skipped_proper ready kept
  | some name =>
    rw [member]
    split_ifs
    · refine .fail (.nameless ?_)
      rintro ⟨⟩
    · exact (walked_proper walks ready).seq ready fun _ _ _ ready' => .pure _ ready'
    · exact (value_proper (fun negative => unfit _ (.inl negative)) (fun shallow => unfit _ (.inr shallow))
        ready).seq ready fun _ _ _ ready' => .pure _ ready'
    · exact skipped_proper ready kept

/-- A resumption consumed the octet past the value. -/
theorem resume_fewer {found : Option (Option Str)} (sane : stream.Sane)
    (unkept : stream.kept = none)
    (ran : resume py where_ .object stream = (.ok found, after)) :
    after.unread.length < stream.unread.length := by
  rcases resume_eq_ok sane unkept ran with ⟨_, pad, left, _⟩ | ⟨_, pad, taken, _, goes, _⟩
  · have length := congrArg List.length left.unread
    simp only [List.length_append, List.length_cons, List.length_nil] at length
    omega
  · have length := congrArg List.length goes.unread
    simp only [List.length_append, List.length_cons] at length
    omega

theorem memberLoop_proper (walks : WalkProper beyond where_ walk) (positive : 0 ≤ maxBodySize)
    (deep : maxStreamDepth ≤ py.nesting) {fuel : Nat} (found : Option (Option Str)) (kept : Kept α)
    (ready : stream.Ready document) (unkept : stream.kept = none)
    (enough : stream.unread.length < fuel) :
    Proper beyond where_ document stream
      (memberLoop py where_ walk maxBodySize fuel found kept stream) := by
  induction fuel generalizing stream found kept with
  | zero => cases enough
  | succ fuel inductionHypothesis =>
    cases found with
    | none => exact .pure _ ready
    | some found =>
      have unfit (e : Exc) (unfit : maxBodySize < 0 ∨ py.nesting < maxStreamDepth) : beyond e := by
        omega
      have members := member_proper walks unfit found kept ready
      refine members.seq ready fun kept' between ran ready' => ?_
      have unkept' : between.kept = none := by
        have := members.unkept unkept
        rwa [ran] at this
      refine (resume_proper ready').seq ready' fun next resumed resumes ready'' => ?_
      have less := resume_fewer ready'.sane unkept' resumes
      have unkept'' : resumed.kept = none := by
        have := (@resume_proper beyond py where_ document between .object ready').unkept unkept'
        rwa [resumes] at this
      have fewer := members.fewer ran
      exact inductionHypothesis next kept' ready'' unkept'' (by omega)

/-- The reader ends properly, whatever the body, where the walk does. -/
theorem readReply_proper (walks : WalkProper beyond where_ walk) (positive : 0 ≤ maxBodySize)
    (deep : maxStreamDepth ≤ py.nesting) (ready : stream.Ready document)
    (unkept : stream.kept = none) :
    Proper beyond where_ document stream (readReply py where_ walk maxBodySize stream) := by
  have enters := @enter_proper beyond py where_ document stream .object ready
  refine enters.seq ready fun first entered ran ready' => ?_
  have unkept' : entered.kept = none := by
    have := enters.unkept unkept
    rwa [ran] at this
  refine Proper.seq ready' (.pure _ ready') ?_
  rintro _ _ ⟨⟩ _
  refine (memberLoop_proper walks positive deep first ⟨[], none⟩ ready' unkept' ?_).seq ready'
    fun kept looped _ ready'' => ?_
  · unfold Stream.rounds
    omega
  · exact (end_proper ready'').seq ready'' fun _ _ _ ready₃ => .pure _ ready₃

/-- With nothing beyond them, the refusals of a stream are `FetchError`s. -/
theorem Refusal.fetchError {e : Exc}
    (refusal : Refusal (fun _ => False) where_ document after e) : ∃ message, e = .fetchError message := by
  cases refusal with
  | misplaced here other near => exact ⟨_, rfl⟩
  | nameless other => exact ⟨_, rfl⟩
  | other raised => exact raised.elim

theorem readReply_eq_error {source : List Arrival} {e : Exc}
    (walks : WalkProper (fun _ => False) where_ walk) (positive : 0 ≤ maxBodySize)
    (deep : maxStreamDepth ≤ py.nesting) (complete : Complete source)
    (ran : readReply py where_ walk maxBodySize (Stream.new source) = (.error e, after)) :
    ∃ message, e = .fetchError message := by
  have proper := readReply_proper walks positive deep (Stream.Ready.new complete) rfl
  rw [ran] at proper
  exact (proper.refuses _ rfl).fetchError

end Refusals

/-! ### What the members of a reply come to -/

section Collecting

variable {α β : Type} {py : Interpreter} {maxBodySize : Int} {reads : Value → α → Prop}
  {reads' : Value → β → Prop} {slots : List (Head .object × Value)}

/-- Two members are not both called by one of the names a reply is told by. -/
def Apart (py : Interpreter) (first second : Head .object × Value) : Prop :=
  ∀ name ∈ replyNames, Named py first.1 name → ¬Named py second.1 name

/-- The members of a reply are within the bounds of the reader: no long number, no deep value, no
name given twice that a reply is told by, and the envelope within its limit. -/
structure Bounded (py : Interpreter) (maxBodySize : Int) (slots : List (Head .object × Value)) :
    Prop where
  numbers : ∀ slot ∈ slots, slot.2.Numbers fun number => number.text.length ≤ maxStreamNumber
  shallow : ∀ slot ∈ slots, slot.2.depth ≤ maxStreamDepth
  once : slots.Pairwise (Apart py)
  envelope : ∀ slot ∈ slots, ∀ name ∈ streamEnvelope, Named py slot.1 name →
    (slot.2.text.length : Int) ≤ maxBodySize

/-- What holds of every value skipped and of every value the walk reads holds of every member. -/
theorem Collects.forall_slots {holds : Value → Prop} {kept final : Kept α}
    (skips : ∀ value, Skipped py value → holds value)
    (read : ∀ value answer, reads value answer → holds value)
    (collects : Collects py maxBodySize reads kept slots final) : ∀ slot ∈ slots, holds slot.2 := by
  induction collects with
  | nil => exact List.forall_mem_nil _
  | result _ _ read_ _ inductionHypothesis =>
    exact List.forall_mem_cons.mpr ⟨read _ _ read_, inductionHypothesis⟩
  | envelope _ _ _ kept_ _ inductionHypothesis =>
    exact List.forall_mem_cons.mpr ⟨skips _ kept_.1, inductionHypothesis⟩
  | other _ _ skipped _ inductionHypothesis =>
    exact List.forall_mem_cons.mpr ⟨skips _ skipped, inductionHypothesis⟩

/-- Two readings of a reply that keep the same of it but for the answers to `result`. -/
def Kept.Same (kept : Kept α) (kept' : Kept β) : Prop :=
  kept.members = kept'.members ∧ kept.answer.isSome = kept'.answer.isSome

/-- What collects for one walk collects for another that reads each result too. -/
theorem Collects.same {kept final : Kept α} {kept' : Kept β}
    (collects : Collects py maxBodySize reads kept slots final) (alike : kept.Same kept')
    (readable : ∀ slot ∈ slots, Named py slot.1 (str "result") →
      ∀ answer, reads slot.2 answer → ∃ answer', reads' slot.2 answer') :
    ∃ final', Collects py maxBodySize reads' kept' slots final' ∧ final.Same final' := by
  induction collects generalizing kept' with
  | nil kept => exact ⟨kept', .nil _, alike⟩
  | @result kept final head value answer slots named fresh read rest inductionHypothesis =>
    obtain ⟨here, later⟩ := List.forall_mem_cons.mp readable
    obtain ⟨answer', read'⟩ := here named.2 answer read
    have next : Kept.Same ⟨kept.members.set (str "result") .null, some answer⟩
        ⟨kept'.members.set (str "result") .null, some answer'⟩ :=
      ⟨congrArg (Dict.set · _ _) alike.1, rfl⟩
    obtain ⟨final', collects', same⟩ := inductionHypothesis next later
    exact ⟨final', .result named (alike.1 ▸ fresh) read' collects', same⟩
  | @envelope kept final head value name json slots named member fresh kept_ rest
      inductionHypothesis =>
    have next : Kept.Same ⟨kept.members.set name json, kept.answer⟩
        ⟨kept'.members.set name json, kept'.answer⟩ :=
      ⟨congrArg (Dict.set · _ _) alike.1, alike.2⟩
    obtain ⟨final', collects', same⟩ :=
      inductionHypothesis next (List.forall_mem_cons.mp readable).2
    exact ⟨final', .envelope named member (alike.1 ▸ fresh) kept_ collects', same⟩
  | other named unasked skipped rest inductionHypothesis =>
    obtain ⟨final', collects', same⟩ :=
      inductionHypothesis alike (List.forall_mem_cons.mp readable).2
    exact ⟨final', .other named (alike.1 ▸ unasked) skipped collects', same⟩

theorem envelope_subset {name : Str} (member : name ∈ streamEnvelope) : name ∈ replyNames :=
  List.mem_cons_of_mem _ member

/-- Members within the bounds collect, where each has a value and the results are read. -/
theorem exists_collects {kept : Kept α} {pairs : List (Str × Json)}
    (parsed : List.Forall₂ (Parsed py) slots pairs)
    (builds : ∀ slot ∈ slots, slot.2.Numbers (Builds py)) (bounded : Bounded py maxBodySize slots)
    (readable : ∀ slot ∈ slots, Named py slot.1 (str "result") → ∃ answer, reads slot.2 answer)
    (fresh : ∀ slot ∈ slots, ∀ name ∈ replyNames, Named py slot.1 name →
      kept.members.has name = false)
    (asked : ∀ name, name ∉ replyNames → kept.members.has name = false) :
    ∃ final, Collects py maxBodySize reads kept slots final := by
  induction parsed generalizing kept with
  | nil => exact ⟨kept, .nil _⟩
  | @cons slot pair slots pairs first others inductionHypothesis =>
    obtain ⟨numbers, shallow, once, envelope⟩ := bounded
    obtain ⟨builds_, builds⟩ := List.forall_mem_cons.mp builds
    obtain ⟨numbers_, numbers⟩ := List.forall_mem_cons.mp numbers
    obtain ⟨shallow_, shallow⟩ := List.forall_mem_cons.mp shallow
    obtain ⟨apart, once⟩ := List.pairwise_cons.mp once
    obtain ⟨envelope_, envelope⟩ := List.forall_mem_cons.mp envelope
    obtain ⟨readable_, readable⟩ := List.forall_mem_cons.mp readable
    obtain ⟨fresh_, fresh⟩ := List.forall_mem_cons.mp fresh
    have skipped : Skipped py slot.2 := ⟨builds_.and numbers_, shallow_⟩
    have rest {next : Kept α}
        (fresh : ∀ slot ∈ slots, ∀ name ∈ replyNames, Named py slot.1 name →
          next.members.has name = false)
        (asked : ∀ name, name ∉ replyNames → next.members.has name = false) :=
      inductionHypothesis builds ⟨numbers, shallow, once, envelope⟩ readable fresh asked
    -- what is put under one of the names is put there for no member behind
    have set {name : Str} (json : Json) (member : name ∈ replyNames)
        (named : Named py slot.1 name) :
        (∀ later ∈ slots, ∀ other ∈ replyNames, Named py later.1 other →
          (kept.members.set name json).has other = false) ∧
        ∀ other, other ∉ replyNames → (kept.members.set name json).has other = false := by
      constructor
      · intro later inside other isReply otherNamed
        rw [Dict.has_set, if_neg]
        · exact fresh later inside other isReply otherNamed
        · rintro rfl
          exact apart later inside _ isReply named otherNamed
      · intro other isOther
        rw [Dict.has_set, if_neg]
        · exact asked other isOther
        · rintro rfl
          exact isOther member
    obtain ⟨found, nameIs⟩ := first.name.exists_nameIs
    by_cases isReply : pair.1 ∈ replyNames
    · have same : found = some pair.1 := by
        rcases first.name.of_nameIs nameIs with same | ⟨_, other⟩
        · exact same
        · exact absurd isReply other
      subst same
      have fresh_ := fresh_ _ isReply first.name
      rcases List.mem_cons.mp isReply with isResult | isEnvelope
      · rw [isResult] at nameIs fresh_
        have named := isResult ▸ first.name
        obtain ⟨answer, read⟩ := readable_ named
        obtain ⟨fresh', asked'⟩ := set .null List.mem_cons_self named
        obtain ⟨final, collects⟩ := @rest ⟨_, some answer⟩ fresh' asked'
        exact ⟨final, .result nameIs fresh_ read collects⟩
      · obtain ⟨fresh', asked'⟩ := set pair.2 isReply first.name
        obtain ⟨final, collects⟩ := @rest ⟨_, kept.answer⟩ fresh' asked'
        exact ⟨final, .envelope nameIs isEnvelope fresh_
          ⟨skipped, envelope_ _ isEnvelope first.name, first.value⟩ collects⟩
    · obtain ⟨final, collects⟩ := rest fresh asked
      refine ⟨final, .other nameIs ?_ skipped collects⟩
      rintro name rfl
      rcases first.name.of_nameIs nameIs with same | ⟨⟨⟩, _⟩
      obtain rfl := Option.some.inj same
      refine ⟨asked _ isReply, ?_, isReply ∘ envelope_subset⟩
      intro isResult
      exact isReply (isResult ▸ List.mem_cons_self)

end Collecting

/-! ### The walks that keep the result and that keep nothing -/

section Walks

variable {α : Type} {py : Interpreter} {where_ : Str} {walk : StreamStep α} {maxBodySize : Int}
  {reads : Value → α → Prop}

/-- What a walk has to be known for: what it reads, that it reads it, and how it refuses. -/
structure Walks (py : Interpreter) (where_ : Str) (walk : StreamStep α)
    (reads : Value → α → Prop) : Prop where
  sound : WalkReads walk reads
  complete : WalkAnswers walk reads
  proper : WalkProper (fun _ => False) where_ walk
  skips : ∀ value answer, reads value answer → Skipped py value

theorem walks_value (where_ : Str) (limit : Nat) (deep : maxStreamDepth ≤ py.nesting) :
    Walks py where_ (value py where_ limit) (KeptAs py limit) where
  sound start after answer sane unkept solid ran _ _ := by
    obtain ⟨pad, tree, passes, numbers, shallow, fits, built⟩ := value_eq_ok sane unkept ran
    have none_ := no_pad (passes.unread ▸ solid)
    refine .inr ⟨tree, .none, ?_, ⟨numbers, shallow⟩, fits, built⟩
    simpa [none_, Blank.none] using passes
  complete start tree answer rest stands unkept delimits keeps := by
    obtain ⟨⟨numbers, shallow⟩, fits, built⟩ := keeps
    exact @value_of_stands py where_ start limit .none tree answer rest stands unkept numbers
      delimits shallow fits built
  proper document stream ready := by
    refine value_proper ?_ ?_ ready
    · intro negative
      exact absurd negative (not_lt.mpr (Int.natCast_nonneg limit))
    · intro shallow
      exact absurd shallow (not_lt.mpr deep)
  skips _ _ keeps := keeps.1

theorem walks_skip (py : Interpreter) (where_ : Str) :
    Walks py where_ (skip py where_) (fun value _ => Skipped py value) where
  sound start after answer sane unkept solid ran _ _ := by
    obtain ⟨pad, tree, passes, numbers, shallow⟩ := skip_eq_ok sane ran
    have none_ := no_pad (passes.unread ▸ solid)
    refine .inr ⟨tree, .none, ?_, numbers, shallow⟩
    simpa [none_, Blank.none] using passes
  complete start tree answer rest stands unkept delimits skipped :=
    @skip_of_stands py where_ start .none tree rest stands skipped.1
      (tree.longest_of_delimits delimits) skipped.2
  proper document stream ready := skip_proper ready
  skips _ _ skipped := skipped

/-- A body is one the reader reads: UTF-8, and an object whose members collect. -/
def Received (py : Interpreter) (maxBodySize : Int) (reads : Value → α → Prop) (body : Bytes)
    (final : Kept α) : Prop :=
  Utf8.Accepts .start body ∧ ∃ object, Spells body object ∧
    Collects py maxBodySize reads ⟨[], none⟩ object.members final

/-- The outcome is a `FetchError`. -/
def IsFetchError (outcome : Except Exc α) : Prop :=
  ∃ message, outcome = .error (.fetchError message)

/-- Under a 200 the reader answers what is said of the members it kept of a body it reads. -/
theorem streamedResult_of_received {requestId : Str} {source : List Arrival} {final : Kept α}
    (walks : Walks py where_ walk reads) (complete : Complete source)
    (received : Received py maxBodySize reads (contents source) final) :
    streamedResult py where_ walk maxBodySize requestId 200 source =
      (concluded py where_ requestId final).map .inr := by
  obtain ⟨accepts, object, ⟨⟨lead, trail, text⟩, isObject⟩, collects⟩ := received
  obtain ⟨after, read⟩ := @readReply_of_collects _ _ where_ _ _ _ (Stream.new source)
    walks.complete lead trail object final (Stream.Ready.new complete).sane ⟨complete, accepts⟩ rfl
    text isObject collects
  unfold streamedResult
  rw [if_neg (by simp), read]

/-- It refuses every other body. -/
theorem streamedResult_of_not_received {requestId : Str} {source : List Arrival}
    (walks : Walks py where_ walk reads) (positive : 0 ≤ maxBodySize)
    (deep : maxStreamDepth ≤ py.nesting) (complete : Complete source)
    (other : ∀ final, ¬Received py maxBodySize reads (contents source) final) :
    IsFetchError (streamedResult py where_ walk maxBodySize requestId 200 source) := by
  unfold streamedResult
  rw [if_neg (by simp)]
  rcases ran : readReply py where_ walk maxBodySize (Stream.new source) with ⟨e | final, after⟩
  · obtain ⟨message, rfl⟩ := readReply_eq_error walks.proper positive deep complete ran
    exact ⟨message, rfl⟩
  · obtain ⟨lead, trail, object, text, isObject, collects, accepts⟩ :=
      readReply_eq_ok walks.sound (Stream.Ready.new complete).sane rfl ran
    exact absurd ⟨accepts, object, ⟨⟨lead, trail, text⟩, isObject⟩, collects⟩ (other final)

/-- A body the reader reads is one `json.loads` parses, to the dict of its members. -/
theorem loads_of_received {body : Bytes} {final : Kept α} {object : Value}
    (skips : ∀ value answer, reads value answer → Skipped py value)
    (deep : maxStreamDepth + 1 ≤ py.nesting) (accepts : Utf8.Accepts .start body)
    (spells : Spells body object)
    (collects : Collects py maxBodySize reads ⟨[], none⟩ object.members final) :
    ∃ pairs, loads py body = .ok (.object (Dict.ofPairs pairs)) ∧
      List.Forall₂ (Parsed py) object.members pairs := by
  have skipped := collects.forall_slots (fun _ skipped => skipped) skips
  refine loads_of_spells spells accepts ?_ (le_trans ?_ deep)
  · refine (object.numbers_members spells.isObject).mpr fun slot member => ?_
    exact (skipped slot member).1.mono fun _ streams => streams.1
  · exact (object.depth_members spells.isObject).mpr fun slot member => (skipped slot member).2

/-- What is said of the members kept beside the result is what is said of the whole reply. -/
theorem concluded_of_received {limit : Int} {method url requestId : Str} {body : Bytes}
    {final : Kept Json} (deep : maxStreamDepth + 1 ≤ py.nesting)
    (received : Received py maxBodySize (KeptAs py limit) body final) :
    concluded py (method ++ str " at " ++ url) requestId final =
      result py (loads py) method url requestId 200 body := by
  obtain ⟨accepts, object, spells, collects⟩ := received
  obtain ⟨pairs, loaded, parsed⟩ :=
    loads_of_received (fun _ _ keeps => keeps.1) deep accepts spells collects
  have parses (value : Value) (answer : Json) (keeps : KeptAs py limit value answer) :
      keptValue py value.text = .ok answer := keeps.2.2
  have agrees : Agrees (Dict.ofPairs pairs) final :=
    Agrees.fold parses collects parsed agrees_new
  rw [concluded_of_agrees requestId agrees, result, replyObject, parsedJsonBody, loaded]
  rfl

/-- Two readings that keep the same but for what they answer conclude alike. -/
theorem concluded_same {β : Type} {requestId : Str} {kept : Kept α} {kept' : Kept β}
    (same : kept.Same kept') :
    (concluded py where_ requestId kept).map (fun _ => ()) =
      (concluded py where_ requestId kept').map fun _ => () := by
  obtain ⟨members, answer⟩ := kept
  obtain ⟨members', answer'⟩ := kept'
  obtain ⟨rfl, isSome⟩ := same
  unfold concluded
  cases discriminate py where_ requestId 200 members with
  | error e => rfl
  | ok value =>
    cases answer with
    | none =>
      cases answer' with
      | none => rfl
      | some found' => cases isSome
    | some found =>
      cases answer' with
      | none => cases isSome
      | some found' => rfl

end Walks

/-! ### Other statuses -/

/-- The body of a failure is read to its end, or cut where a diagnosis is. -/
theorem failureLoop_of_complete {fuel : Nat} {body : Bytes} {source : List Arrival}
    (complete : Complete source) (enough : maxErrorBodySize ≤ body.length + fuel) :
    failureLoop fuel body source =
      .ok (body ++ (contents source).take (maxErrorBodySize - body.length)) := by
  induction fuel generalizing body source with
  | zero =>
    have full : maxErrorBodySize ≤ body.length := enough
    rw [failureLoop, Nat.sub_eq_zero_of_le full, List.take_zero, List.append_nil]
  | succ fuel inductionHypothesis =>
    rw [failureLoop]
    split_ifs with full
    · rw [Nat.sub_eq_zero_of_le full, List.take_zero, List.append_nil]
    rcases received : read1 (maxErrorBodySize - body.length) source with ⟨e | chunk, rest⟩
    · exact absurd received (complete_not_error complete)
    obtain ⟨front, size, goes⟩ := read1_eq_octets received
    cases chunk with
    | nil =>
      obtain ⟨rfl, _⟩ := read1_eq_end (by omega) received
      simp [contents]
    | cons first more =>
      dsimp only
      rw [inductionHypothesis (goes complete) (by simp only [List.length_append, List.length_cons]; omega),
        front, take_after_chunk size, List.append_assoc, List.length_append, Nat.sub_add_eq]

theorem failureBody_of_complete {source : List Arrival} (complete : Complete source) :
    failureBody source = .ok ((contents source).take maxErrorBodySize) :=
  failureLoop_of_complete complete (Nat.le_add_left _ _)

/-! ### The agreement -/

section Agreement

variable {py : Interpreter} {where_ method url requestId : Str} {maxBodySize limit : Nat}
  {source : List Arrival}

/-- A limit that every result of a body has room in. -/
def ResultFits (py : Interpreter) (limit : Nat) (body : Bytes) : Prop :=
  ∀ object, Spells body object → ∀ slot ∈ object.members, Named py slot.1 (str "result") →
    slot.2.text.length ≤ limit

/-- A value skipped that has room is one that is kept. -/
theorem keptAs_of_skipped {slot : Head .object × Value} {pair : Str × Json}
    (parsed : Parsed py slot pair) (fits : slot.2.text.length ≤ limit)
    (skipped : Skipped py slot.2) : KeptAs py limit slot.2 pair.2 :=
  ⟨skipped, Int.ofNat_le.mpr fits, parsed.value⟩

/-- A reply `call` answers, a value or an rpc error, is one the reader reads, within its bounds. -/
theorem exists_received {body : Bytes} {reply : Dict} (wellFormed : Utf8.Accepts .start body)
    (utf8 : detectEncoding body = .utf8) (loaded : loads py body = .ok (.object reply))
    (bounded : ∀ object, Spells body object → Bounded py maxBodySize object.members)
    (fits : ResultFits py limit body) :
    ∃ final, Received py maxBodySize (KeptAs py limit) body final := by
  obtain ⟨object, pairs, spells, numbers, _, parsed⟩ := exists_spells wellFormed utf8 loaded
  have within := bounded object spells
  have builds := (object.numbers_members spells.isObject).mp numbers
  obtain ⟨final, collects⟩ := @exists_collects Json py maxBodySize (KeptAs py limit) object.members
    ⟨[], none⟩ pairs parsed builds within
    (fun slot member named => by
      obtain ⟨pair, parsed⟩ := exists_parsed parsed slot member
      have skipped : Skipped py slot.2 :=
        ⟨(builds slot member).and (within.numbers slot member), within.shallow slot member⟩
      exact ⟨pair.2, keptAs_of_skipped parsed (fits object spells slot member named) skipped⟩)
    (fun _ _ _ _ _ => rfl) (fun _ _ => rfl)
  exact ⟨final, wellFormed, object, spells, collects⟩

/-- The walk that keeps the result reads the bodies that the one that skips it does. -/
theorem received_skip {body : Bytes} {final : Kept Json}
    (received : Received py maxBodySize (KeptAs py limit) body final) :
    ∃ final', Received py maxBodySize (fun value (_ : Unit) => Skipped py value) body final' ∧
      final.Same final' := by
  obtain ⟨accepts, object, spells, collects⟩ := received
  have start : Kept.Same (⟨[], none⟩ : Kept Json) (⟨[], none⟩ : Kept Unit) := ⟨rfl, rfl⟩
  obtain ⟨final', collects', same⟩ := @Collects.same _ _ _ _ _ (fun value _ => Skipped py value) _ _ _ _
    collects start fun _ _ _ _ keeps => ⟨(), keeps.1⟩
  exact ⟨final', ⟨accepts, object, spells, collects'⟩, same⟩

theorem received_value {body : Bytes} {final : Kept Unit} (deep : maxStreamDepth + 1 ≤ py.nesting)
    (fits : ResultFits py limit body)
    (received : Received py maxBodySize (fun value (_ : Unit) => Skipped py value) body final) :
    ∃ final', Received py maxBodySize (KeptAs py limit) body final' ∧ final.Same final' := by
  obtain ⟨accepts, object, spells, collects⟩ := received
  obtain ⟨pairs, _, parsed⟩ :=
    loads_of_received (fun _ _ skipped => skipped) deep accepts spells collects
  have readable (slot : Head .object × Value) (member : slot ∈ object.members)
      (named : Named py slot.1 (str "result")) (_ : Unit) (skipped : Skipped py slot.2) :
      ∃ json, KeptAs py limit slot.2 json := by
    obtain ⟨pair, parsed⟩ := exists_parsed parsed slot member
    exact ⟨pair.2, keptAs_of_skipped parsed (fits object spells slot member named) skipped⟩
  have start : Kept.Same (⟨[], none⟩ : Kept Unit) (⟨[], none⟩ : Kept Json) := ⟨rfl, rfl⟩
  obtain ⟨final', collects', same⟩ := collects.same start readable
  exact ⟨final', ⟨accepts, object, spells, collects'⟩, same⟩

/-- A body the reader reads is answered as `call` answers it. -/
theorem streamedResult_value (deep : maxStreamDepth + 1 ≤ py.nesting) (complete : Complete source)
    {final : Kept Json} (received : Received py maxBodySize (KeptAs py limit) (contents source) final) :
    streamedResult py (method ++ str " at " ++ url) (value py (method ++ str " at " ++ url) limit)
        maxBodySize requestId 200 source =
      (result py (loads py) method url requestId 200 (contents source)).map .inr := by
  have walks := walks_value (method ++ str " at " ++ url) limit ((Nat.le_succ _).trans deep)
  rw [streamedResult_of_received walks complete received, concluded_of_received deep received]

theorem map_inr {α β : Type} (outcome : Except Exc α) :
    (outcome.map (@Sum.inr β α)).map (fun _ => ()) = outcome.map fun _ => () := by
  cases outcome <;> rfl

theorem isFetchError_map {α β : Type} {f : α → β} {outcome : Except Exc α} :
    IsFetchError (outcome.map f) ↔ IsFetchError outcome := by
  constructor
  · rintro ⟨message, same⟩
    exact ⟨message, map_eq_error same⟩
  · rintro ⟨message, same⟩
    exact ⟨message, congrArg (Except.map f) same⟩

/-- Where the one walk reads a body so does the other, and what is said of it is the same. -/
theorem streamedResult_skip (deep : maxStreamDepth + 1 ≤ py.nesting) (complete : Complete source)
    {final : Kept Json} {final' : Kept Unit} (same : final.Same final')
    (received : Received py maxBodySize (KeptAs py limit) (contents source) final)
    (received' :
      Received py maxBodySize (fun value (_ : Unit) => Skipped py value) (contents source) final') :
    (streamedResult py where_ (skip py where_) maxBodySize requestId 200 source).map (fun _ => ()) =
      (streamedResult py where_ (value py where_ limit) maxBodySize requestId 200 source).map
        fun _ => () := by
  have walks := walks_value where_ limit ((Nat.le_succ _).trans deep)
  rw [streamedResult_of_received walks complete received,
    streamedResult_of_received (walks_skip py where_) complete received', map_inr, map_inr]
  exact (concluded_same same).symm

/-- Under a status other than 200 the body is read as `call` reads it, cut to a diagnosis. -/
theorem streamedResult_failed {α : Type} {walk : StreamStep α} {status : Nat} (failed : status ≠ 200)
    (complete : Complete source) :
    streamedResult py (method ++ str " at " ++ url) walk maxBodySize requestId status source =
      (result py (loads py) method url requestId status
        ((contents source).take maxErrorBodySize)).map .inl := by
  unfold streamedResult
  rw [if_pos failed, failureBody_of_complete complete, result]
  dsimp only [bind, Except.bind]
  cases replyObject (loads py) (method ++ str " at " ++ url) status
      ((contents source).take maxErrorBodySize) with
  | error e => rfl
  | ok reply =>
    dsimp only
    cases discriminate py (method ++ str " at " ++ url) requestId status reply with
    | error e => rfl
    | ok answer => rfl

/-- An outcome of `call` that is its answer to the request: a value or an rpc error. -/
def AnswersRequest : Except Exc Json → Prop
  | .ok _ | .error (.rpcError _ _ _) => True
  | .error _ => False

/-- Only a dict is told a value or an rpc error by. -/
theorem exists_loads_of_answered {body : Bytes}
    (answered : AnswersRequest (result py (loads py) method url requestId 200 body)) :
    ∃ reply, loads py body = .ok (.object reply) := by
  rcases result_cases py (loads_raises py) method url requestId 200 body with
    ⟨reply, loaded, _⟩ | ⟨_, e, refused, ⟨_, message, rfl⟩ | ⟨failed, _⟩⟩
  · exact ⟨reply, loaded⟩
  · rw [refused] at answered
    exact answered.elim
  · exact absurd rfl failed

/-- The reader as the body arrives reads what `call` reads. What it answers under a 200, a value or
an rpc error, `call` answers too. What `call` answers of a UTF-8 body it answers, within its bounds
and where the walk has room for the result. The walk that skips the result is refused where the walk
that keeps it is. Under any other status the body is read as `call` reads it, cut to a diagnosis. -/
theorem streamedResult_agrees (py : Interpreter) (deep : maxStreamDepth + 1 ≤ py.nesting)
    (method url requestId : Str) (maxBodySize limit : Nat) {source : List Arrival}
    (complete : Complete source) :
    let where_ := method ++ str " at " ++ url
    let body := contents source
    let called := result py (loads py) method url requestId
    let kept := streamedResult py where_ (value py where_ limit) maxBodySize requestId
    let skipped := streamedResult py where_ (skip py where_) maxBodySize requestId
    (∀ value, kept 200 source = .ok (.inr value) → called 200 body = .ok value) ∧
    (∀ message code data, kept 200 source = .error (.rpcError message code data) →
      called 200 body = .error (.rpcError message code data)) ∧
    (Utf8.Accepts .start body → detectEncoding body = .utf8 →
      (∀ object, Spells body object → Bounded py maxBodySize object.members) →
      ResultFits py limit body → AnswersRequest (called 200 body) →
        kept 200 source = (called 200 body).map .inr) ∧
    (ResultFits py limit body → (IsFetchError (skipped 200 source) ↔ IsFetchError (kept 200 source))) ∧
    ∀ status, status ≠ 200 →
      kept status source = (called status (body.take maxErrorBodySize)).map .inl := by
  intro where_ body called kept skipped
  have deep' := (Nat.le_succ _).trans deep
  have positive := Int.natCast_nonneg maxBodySize
  have walks := walks_value where_ limit deep'
  have walks' := walks_skip py where_
  have sound (outcome : Except Exc (Json ⊕ Json)) (said : kept 200 source = outcome)
      (silent : ¬IsFetchError outcome) : outcome = (called 200 body).map .inr := by
    by_cases read : ∃ final, Received py maxBodySize (KeptAs py limit) body final
    · obtain ⟨final, received⟩ := read
      exact said.symm.trans (streamedResult_value deep complete received)
    · refine absurd ?_ silent
      rw [← said]
      exact streamedResult_of_not_received walks positive deep' complete (not_exists.mp read)
  refine ⟨fun value said => ?_, fun message code data said => ?_, ?_, fun fits => ?_, ?_⟩
  · obtain ⟨_, same, ⟨⟩⟩ := map_eq_ok (sound _ said (by rintro ⟨_, ⟨⟩⟩)).symm
    exact same
  · exact map_eq_error (sound _ said (by rintro ⟨_, ⟨⟩⟩)).symm
  · intro wellFormed utf8 bounded fits answered
    obtain ⟨reply, loaded⟩ := exists_loads_of_answered answered
    obtain ⟨final, received⟩ := exists_received wellFormed utf8 loaded bounded fits
    exact streamedResult_value deep complete received
  · by_cases read : ∃ final, Received py maxBodySize (KeptAs py limit) body final
    · obtain ⟨final, received⟩ := read
      obtain ⟨final', received', same⟩ := received_skip received
      have alike : (skipped 200 source).map (fun _ => ()) = (kept 200 source).map fun _ => () :=
        streamedResult_skip deep complete same received received'
      rw [← isFetchError_map, alike, isFetchError_map]
    · refine iff_of_true ?_ ?_
      · refine streamedResult_of_not_received walks' positive deep' complete fun final received => ?_
        obtain ⟨final', received', _⟩ := received_value deep fits received
        exact read ⟨final', received'⟩
      · exact streamedResult_of_not_received walks positive deep' complete (not_exists.mp read)
  · intro status failed
    exact streamedResult_failed failed complete

end Agreement

/-! ### A reply that is read, and one that is not -/

/-- The member `"result":true` of a reply. -/
def resultMember : Head .object × Value :=
  (.member .none [.plain 0x72 rfl, .plain 0x65 rfl, .plain 0x73 rfl, .plain 0x75 rfl,
    .plain 0x6C rfl, .plain 0x74 rfl] .none .none,
    .literal .true)

/-- The member `"id":"a"` of a reply. -/
def idMember : Head .object × Value :=
  (.member .none [.plain 0x69 rfl, .plain 0x64 rfl] .none .none, .string [.plain 0x61 rfl])

/-- A reply of the two. -/
def trueReply : Value :=
  .full .object resultMember.1 resultMember.2 (.more .none idMember.1 idMember.2 (.close .none))

/-- The reply, its opening bracket in a read of its own. -/
def trueSource : List Arrival :=
  [.octets 0x7B [], .octets 0x22 (trueReply.text.drop 2)]

theorem trueSource_spells : Spells (contents trueSource) trueReply :=
  ⟨⟨.none, .none, by decide +kernel⟩, trivial⟩

theorem trueSource_complete : Complete trueSource := by
  intro arrival member e
  simp only [trueSource, List.mem_cons, List.not_mem_nil, or_false] at member
  rcases member with rfl | rfl <;> rintro ⟨⟩

theorem Named.unique {py : Interpreter} {head : Head .object} {name other : Str}
    (named : Named py head name) (named' : Named py head other) : name = other :=
  Json.string.inj (Except.ok.inj (named.symm.trans named'))

theorem trueReply_bounded : Bounded cpython (8 : Nat) trueReply.members where
  numbers := by simp [trueReply, Value.members, Tail.slots, resultMember, idMember, Value.Numbers]
  shallow := by decide
  once := by
    have result : Named cpython resultMember.1 (str "result") := by
      unfold Named
      decide +kernel
    have id_ : Named cpython idMember.1 (str "id") := by
      unfold Named
      decide +kernel
    refine List.pairwise_pair.mpr fun name _ first second => ?_
    exact absurd ((first.unique result).symm.trans (second.unique id_)) (by decide)
  envelope slot member _ _ _ := by
    rcases List.mem_pair.mp member with rfl | rfl <;> decide

theorem streamedResult_agrees_true :
    streamedResult cpython (str "m" ++ str " at " ++ str "u")
        (value cpython (str "m" ++ str " at " ++ str "u") (4 : Nat)) (8 : Nat) (str "a") 200
        trueSource =
      (result cpython (loads cpython) (str "m") (str "u") (str "a") 200 (contents trueSource)).map
        .inr := by
  refine (streamedResult_agrees cpython (by decide) (str "m") (str "u") (str "a") 8 4
    trueSource_complete).2.2.1 ?_ ?_ ?_ ?_ ?_
  · exact Utf8.accepts_start_iff.mpr ⟨contents trueSource, by decide +kernel⟩
  · decide +kernel
  · intro object spells
    rw [spells_unique spells trueSource_spells]
    exact trueReply_bounded
  · intro object spells
    rw [spells_unique spells trueSource_spells]
    intro slot member named
    rcases List.mem_pair.mp member with rfl | rfl <;> decide
  · have answer : result cpython (loads cpython) (str "m") (str "u") (str "a") 200
        (contents trueSource) = .ok (.bool true) := by decide +kernel
    rw [answer]
    trivial

/-- The text in UTF-16, the low octet of each code first, of ASCII codes. -/
def wide (text : Str) : Bytes :=
  text.flatMap fun code => [code, 0]

/-- A reply that is UTF-8 and has no mark, and that `call` takes for UTF-16. -/
def wideReply : Str :=
  str "\x7b\"id\":\"a\",\"result\":1\x7d"

theorem streamedResult_refuses_wide :
    Utf8.Accepts .start (wide wideReply) ∧ (wide wideReply).take 3 ≠ [0xEF, 0xBB, 0xBF] ∧
      result cpython (loads cpython) (str "m") (str "u") (str "a") 200 (wide wideReply) =
        .ok (.int 1) ∧
      streamedResult cpython (str "m at u") (value cpython (str "m at u") 4) 1024 (str "a") 200
          [.octets 0x7B ((wide wideReply).drop 1)] =
        .error (.fetchError (str "m at u: not '\"' at octet 1 of the reply")) ∧
      contents [.octets 0x7B ((wide wideReply).drop 1)] = wide wideReply := by
  refine ⟨Utf8.accepts_start_iff.mpr ⟨wide wideReply, by decide +kernel⟩, ?_⟩
  decide +kernel

end BitcoinCoreRpc
