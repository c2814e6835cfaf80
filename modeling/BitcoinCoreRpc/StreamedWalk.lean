/-
This file says which walks `call_stream` may be given, for the reply it accepts to be one
`call` parses.

The reader runs a walk at one place of a reply at most, so what it says of the reply it
says of that run alone. A walk whose calls are in order there, each value read where one
is due and each iterator resumed behind a value of its container, reads a value, and an
accepted reply is an object with that value under `result`. A refusal the walk lets pass
is harmless where the call spared the octet due. Neither is checked by the stream: a walk
that leaves a value unread, or lets the refusal of a string pass inside it, has replies
accepted that are no JSON.
-/

import BitcoinCoreRpc.CallStream
import BitcoinCoreRpc.Walk

namespace BitcoinCoreRpc

open JsonText Steps

/-! ### The one run of a walk -/

section Once

variable {α : Type} {py : Interpreter} {where_ : Str} {walk walk' : StreamStep α}
  {maxBodySize : Int} {stream after start : Stream} {document : Bytes} {found : Option Str}
  {kept kept' final : Kept α}

/-- A member other than `result`, or one given twice, is read without the walk. -/
theorem member_unasked (unasked : found = some (str "result") →
    kept.members.has (str "result") = true) :
    member py where_ walk maxBodySize found kept = member py where_ walk' maxBodySize found kept := by
  cases found with
  | none => rfl
  | some name =>
    rw [member, member]
    split_ifs with twice isResult
    · rfl
    · subst isResult
      exact absurd (unasked rfl) twice
    · rfl
    · rfl

/-- It changes nothing of the answer. -/
theorem member_unanswered (unasked : found = some (str "result") →
      kept.members.has (str "result") = true)
    (ran : member py where_ walk maxBodySize found kept stream = (.ok kept', after)) :
    kept'.answer = kept.answer ∧
      kept'.members.has (str "result") = kept.members.has (str "result") := by
  have skipped (ran : (do skip py where_; return kept : StreamStep (Kept α)) stream =
      (.ok kept', after)) : kept' = kept := by
    obtain ⟨_, _, _, done⟩ := seq_eq_ok ran
    cases done
    rfl
  cases found with
  | none =>
    obtain rfl := skipped ran
    exact ⟨rfl, rfl⟩
  | some name =>
    rw [member] at ran
    split_ifs at ran with twice isResult
    · cases ran
    · subst isResult
      exact absurd (unasked rfl) twice
    · obtain ⟨json, _, _, done⟩ := seq_eq_ok ran
      cases done
      refine ⟨rfl, ?_⟩
      rw [Dict.has_set, if_neg (Ne.symm isResult)]
    · obtain rfl := skipped ran
      exact ⟨rfl, rfl⟩

/-- Once `result` was given, the loop has no use for the walk. -/
theorem memberLoop_given {fuel : Nat} {found : Option (Option Str)}
    (given : kept.members.has (str "result") = true)
    (ran : memberLoop py where_ walk maxBodySize fuel found kept stream = (.ok final, after)) :
    final.answer = kept.answer ∧
      memberLoop py where_ walk' maxBodySize fuel found kept stream = (.ok final, after) := by
  induction fuel generalizing stream found kept with
  | zero =>
    cases found with
    | none =>
      cases ran
      exact ⟨rfl, rfl⟩
    | some found => cases ran
  | succ fuel inductionHypothesis =>
    cases found with
    | none =>
      cases ran
      exact ⟨rfl, rfl⟩
    | some found =>
      obtain ⟨kept', between, members, ran⟩ := seq_eq_ok ran
      obtain ⟨next, resumed, resumes, ran⟩ := seq_eq_ok ran
      obtain ⟨answer, has⟩ := member_unanswered (fun _ => given) members
      obtain ⟨same, ran'⟩ := inductionHypothesis (has.trans given) ran
      refine ⟨same.trans answer, ?_⟩
      rw [@member_unasked _ _ _ _ walk' _ _ _ fun _ => given] at members
      rw [memberLoop, seq_of_ok members, seq_of_ok resumes, ran']

/-- A walk is seen by what it comes to at the value. -/
theorem walked_congr {octet : Nat} (peeks : peek where_ stream = (.ok octet, start))
    (same : walk' start = walk start) :
    walked where_ walk' stream = walked where_ walk stream := by
  rw [walked, walked, seq_of_ok peeks, seq_of_ok peeks, seq_read, seq_read]
  rcases ran : walk start with ⟨e | answer, stopped⟩
  · rw [seq_of_error ran, seq_of_error (same.trans ran)]
  · rw [seq_of_ok ran, seq_of_ok (same.trans ran)]

/-- What the reader did once: it ran the walk at a value of the document, and whatever else it would
have had the walk do there, it would have gone on alike. -/
def RanOnce (document : Bytes) (walk : StreamStep α) (answer : α)
    (goes : StreamStep α → Prop) : Prop :=
  ∃ start stopped : Stream, start.Ready document ∧ start.kept = none ∧ NoBlank start.unread ∧
    walk start = (.ok answer, stopped) ∧
      ∀ walk' : StreamStep α, walk' start = (.ok answer, stopped) → goes walk'

/-- The member `result`, not given before, runs the walk at its value. -/
theorem member_once (ready : stream.Ready document) (unkept : stream.kept = none)
    (fresh : kept.members.has (str "result") = false)
    (ran : member py where_ walk maxBodySize (some (str "result")) kept stream = (.ok kept', after)) :
    kept'.members.has (str "result") = true ∧ ∃ answer, kept'.answer = some answer ∧
      RanOnce document walk answer fun walk' =>
        member py where_ walk' maxBodySize (some (str "result")) kept stream = (.ok kept', after) := by
  have once (walk : StreamStep α) : member py where_ walk maxBodySize (some (str "result")) kept =
      (do
        let answer ← walked where_ walk
        return { members := kept.members.set (str "result") .null, answer := some answer }) := by
    rw [member, fresh]
    rfl
  rw [once] at ran
  obtain ⟨told, last, walks, done⟩ := seq_eq_ok ran
  cases done
  obtain ⟨octet, start, peeks, inner⟩ := seq_eq_ok walks
  have ready' := (@nextOctet_proper (fun _ => True) where_ _ _ ready).ready ready peeks
  obtain ⟨pad, rest, passes, here, solid⟩ := nextOctet_eq_ok ready.sane peeks
  obtain ⟨_, _, ⟨⟩, inner⟩ := seq_eq_ok inner
  obtain ⟨told', stopped, walking, inner⟩ := seq_eq_ok inner
  have same : told' = told := by
    obtain ⟨_, _, _, inner⟩ := seq_eq_ok inner
    obtain ⟨_, _, ⟨⟩, inner⟩ := seq_eq_ok inner
    split_ifs at inner
    · cases inner
    · cases inner
      rfl
  subst same
  refine ⟨by rw [Dict.has_set, if_pos rfl], told', rfl, start, stopped, ready',
    passes.kept_none unkept, ?_, walking, fun walk' walking' => ?_⟩
  · rw [Stream.unread, here]
    exact noBlank_cons solid
  · have again := (walked_congr peeks (walking'.trans walking.symm)).trans walks
    show member py where_ walk' maxBodySize (some (str "result")) kept stream = _
    rw [once, seq_of_ok again]
    rfl

/-- So does the loop over the members, where it came to an answer. -/
theorem memberLoop_once {fuel : Nat} {found : Option (Option Str)} {answer : α}
    (ready : stream.Ready document) (unkept : stream.kept = none)
    (fresh : kept.members.has (str "result") = false) (unanswered : kept.answer = none)
    (ran : memberLoop py where_ walk maxBodySize fuel found kept stream = (.ok final, after))
    (answered : final.answer = some answer) :
    RanOnce document walk answer fun walk' =>
      memberLoop py where_ walk' maxBodySize fuel found kept stream = (.ok final, after) := by
  induction fuel generalizing stream found kept with
  | zero =>
    cases found with
    | none =>
      cases ran
      cases unanswered.symm.trans answered
    | some found => cases ran
  | succ fuel inductionHypothesis =>
    cases found with
    | none =>
      cases ran
      cases unanswered.symm.trans answered
    | some found =>
      obtain ⟨kept', between, members, onward⟩ := seq_eq_ok ran
      obtain ⟨next, resumed, resumes, loops⟩ := seq_eq_ok onward
      by_cases asked : found = some (str "result")
      · subst asked
        obtain ⟨given, told, tells, start, stopped, ready', unkept', solid, walks, goes⟩ :=
          member_once ready unkept fresh members
        have same := (@memberLoop_given _ _ _ walk walk _ _ _ _ _ _ _ given loops).1
        obtain rfl : told = answer := Option.some.inj ((same.trans tells).symm.trans answered)
        refine ⟨start, stopped, ready', unkept', solid, walks, fun walk' walks' => ?_⟩
        show memberLoop py where_ walk' maxBodySize (fuel + 1) _ kept stream = _
        rw [memberLoop, seq_of_ok (goes walk' walks'), seq_of_ok resumes]
        exact (memberLoop_given given loops).2
      · have unasked : found = some (str "result") → kept.members.has (str "result") = true :=
          fun same => absurd same asked
        obtain ⟨answer', has⟩ := member_unanswered unasked members
        -- the member is read without the walk, so a walk that is refused tells how
        have idle : WalkProper (fun _ => True) where_ (fail outOfRounds : StreamStep α) :=
          fun _ _ _ => .fail (.other trivial)
        have proper := @member_proper _ _ py _ _ _ maxBodySize _ idle (fun _ _ => trivial) found kept ready
        rw [← @member_unasked _ _ _ walk _ _ _ _ unasked] at proper
        have ready' := proper.ready ready members
        have unkept' := proper.unkept unkept
        rw [members] at unkept'
        have resuming := @resume_proper (fun _ => True) py where_ _ _ .object ready'
        have ready'' := resuming.ready ready' resumes
        have unkept'' := resuming.unkept unkept'
        rw [resumes] at unkept''
        obtain ⟨start, stopped, ready₃, unkept₃, solid, walks, goes⟩ :=
          inductionHypothesis ready'' unkept'' (has.trans fresh) (answer'.trans unanswered) loops
        refine ⟨start, stopped, ready₃, unkept₃, solid, walks, fun walk' walks' => ?_⟩
        rw [@member_unasked _ _ _ _ walk' _ _ _ unasked] at members
        show memberLoop py where_ walk' maxBodySize (fuel + 1) _ kept stream = _
        rw [memberLoop, seq_of_ok members, seq_of_ok resumes]
        exact goes walk' walks'

/-- And so does the reader of a reply. -/
theorem readReply_once {source : List Arrival} {answer : α} (complete : Complete source)
    (ran : readReply py where_ walk maxBodySize (Stream.new source) = (.ok final, after))
    (answered : final.answer = some answer) :
    RanOnce (contents source) walk answer fun walk' =>
      readReply py where_ walk' maxBodySize (Stream.new source) = (.ok final, after) := by
  have ready : (Stream.new source).Ready (contents source) := .new complete
  obtain ⟨first, entered, enters, onward⟩ := seq_eq_ok ran
  obtain ⟨_, _, ⟨⟩, onward⟩ := seq_eq_ok onward
  obtain ⟨kept', looped, loops, onward⟩ := seq_eq_ok onward
  obtain ⟨_, last, ends, done⟩ := seq_eq_ok onward
  cases done
  have entering := @enter_proper (fun _ => True) py where_ _ _ .object ready
  have unkept := entering.unkept rfl
  rw [enters] at unkept
  obtain ⟨start, stopped, ready', unkept', solid, walks, goes⟩ :=
    memberLoop_once (entering.ready ready enters) unkept rfl rfl loops answered
  refine ⟨start, stopped, ready', unkept', solid, walks, fun walk' walks' => ?_⟩
  show readReply py where_ walk' maxBodySize (Stream.new source) = _
  rw [readReply, seq_of_ok enters, seq_read, seq_of_ok (goes walk' walks'), seq_of_ok ends]
  rfl

/-- A reply whose walk read a value where it was run is an object, and that value is among those of
its members. -/
theorem collects_of_once {source : List Arrival} {answer : α} {holds : Value → Prop}
    (once : RanOnce (contents source) walk answer fun walk' =>
      readReply py where_ walk' maxBodySize (Stream.new source) = (.ok final, after))
    (complete : Complete source)
    (reads : ∀ start stopped : Stream, start.Ready (contents source) → start.kept = none →
      NoBlank start.unread → walk start = (.ok answer, stopped) → stopped.open_ = start.open_ →
      stopped.position ≠ start.position → ∃ (value : Value) (trail : Blank),
        Stream.Passes start (value.text ++ trail.codes) stopped ∧ holds value) :
    ∃ object, Spells (contents source) object ∧ Utf8.Accepts .start (contents source) ∧
      Collects py maxBodySize (fun value told => told = answer ∧ holds value) ⟨[], none⟩
        object.members final := by
  classical
  obtain ⟨start, stopped, ready, unkept, solid, walks, goes⟩ := once
  -- the walk that does there what it did, and is refused anywhere else
  let there : StreamStep α := fun stream =>
    if stream = start then (.ok answer, stopped) else (.error outOfRounds, stream)
  have spec : WalkReads there fun value told => told = answer ∧ holds value := by
    intro begins after told _ _ _ ran back moved
    simp only [there] at ran
    split_ifs at ran with same
    · cases ran
      subst same
      obtain ⟨value, trail, passes, held⟩ := reads _ _ ready unkept solid walks back moved
      exact .inr ⟨value, trail, passes, rfl, held⟩
    · cases ran
  have ran : readReply py where_ there maxBodySize (Stream.new source) = (.ok final, after) :=
    goes there (if_pos rfl)
  obtain ⟨lead, trail, object, text, isObject, collects, accepts⟩ :=
    readReply_eq_ok spec (Stream.Ready.new complete).sane rfl ran
  exact ⟨object, ⟨⟨lead, trail, text⟩, isObject⟩, accepts, collects⟩

/-- An answer is of a member `result`. -/
theorem Collects.exists_result {reads : Value → α → Prop} {slots : List (Head .object × Value)}
    (collects : Collects py maxBodySize reads kept slots final) :
    final.answer = kept.answer ∨ ∃ slot ∈ slots, ∃ answer, Named py slot.1 (str "result") ∧
      final.answer = some answer ∧ reads slot.2 answer := by
  induction collects with
  | nil => exact .inl rfl
  | result named _ read _ inductionHypothesis =>
    rcases inductionHypothesis with same | ⟨slot, member, told⟩
    · exact .inr ⟨_, List.mem_cons_self, _, named.2, same, read⟩
    · exact .inr ⟨slot, List.mem_cons_of_mem _ member, told⟩
  | envelope _ _ _ _ _ inductionHypothesis | other _ _ _ _ inductionHypothesis =>
    rcases inductionHypothesis with same | ⟨slot, member, told⟩
    · exact .inl same
    · exact .inr ⟨slot, List.mem_cons_of_mem _ member, told⟩

end Once

/-! ### Walks in order -/

section InOrder

variable {α : Type} {py : Interpreter} {where_ requestId : Str} {maxBodySize rounds : Nat}
  {source : List Arrival} {walked : Walked α}

/-- A body is one JSON object that `call` parses, unless it nests deeper than the parser recurses,
and octets are those of the value of its `result`. -/
structure ReadWhole (py : Interpreter) (body octets : Bytes) (object : Value) : Prop where
  utf8 : Utf8.Accepts .start body
  spells : Spells body object
  parses : object.depth ≤ py.nesting → ∃ reply, loads py body = .ok (.object reply)
  result : ∃ slot ∈ object.members, Named py slot.1 (str "result") ∧ slot.2.text = octets

/-- A reply accepted of a walk in order, whose refused calls spared what was due, was read whole, and
the walk consumed its result, with white space behind it only where it looked there. -/
theorem readWhole_of_inPlace {walk : Walk α} (complete : Complete source)
    (ran : streamedResult py where_ (walkOf py where_ walk rounds) maxBodySize requestId 200 source =
      .ok (.inr walked))
    (inPlace : ∀ step ∈ walked.steps, step.InPlace)
    (still : ∀ start stopped, walkOf py where_ walk rounds start = (.ok walked, stopped) →
      ∀ step ∈ walked.steps, step.Refused → step.Still) :
    ∃ (object : Value) (read : Bytes) (trail : Blank), ReadWhole py (contents source) read object ∧
      walked.octets = read ++ trail.codes ∧
        ((∀ step ∈ walked.steps, ¬step.Behind) → walked.octets = read) := by
  unfold streamedResult at ran
  rw [if_neg (by simp)] at ran
  rcases reads : readReply py where_ (walkOf py where_ walk rounds) maxBodySize (Stream.new source) with
    ⟨e | final, after⟩
  · rw [reads] at ran
    cases ran
  rw [reads] at ran
  obtain ⟨told, concludes, same⟩ := map_eq_ok ran
  obtain rfl := Sum.inr.inj same
  have answered : final.answer = some told := by
    obtain ⟨_, _, answers⟩ := bind_eq_ok concludes
    cases answer : final.answer with
    | none =>
      rw [answer] at answers
      cases answers
    | some found =>
      rw [answer] at answers
      cases answers
      rfl
  let holds (value : Value) : Prop :=
    value.Numbers (Streams py) ∧ ∃ trail : Blank, told.octets = value.text ++ trail.codes ∧
      ((∀ step ∈ told.steps, ¬step.Behind) → trail.codes = [])
  obtain ⟨object, spells, accepts, collects⟩ :=
    @collects_of_once _ _ _ _ _ _ _ _ _ holds (readReply_once complete reads answered) complete (by
      intro start stopped ready unkept solid walks back moved
      obtain ⟨value, trail, passes, numbers, octets⟩ :=
        walkOf_reads ready unkept solid walks inPlace (still _ _ walks) back moved
      exact ⟨value, trail, passes, numbers, trail, octets⟩)
  obtain ⟨slot, member, named, trail, octets, silent⟩ : ∃ slot ∈ object.members,
      Named py slot.1 (str "result") ∧ ∃ trail : Blank, told.octets = slot.2.text ++ trail.codes ∧
        ((∀ step ∈ told.steps, ¬step.Behind) → trail.codes = []) := by
    rcases collects.exists_result with none_ | ⟨slot, member, _, named, _, _, _, trail, octets, silent⟩
    · cases answered.symm.trans none_
    · exact ⟨slot, member, named, trail, octets, silent⟩
  refine ⟨object, slot.2.text, trail, ⟨accepts, spells, fun shallow => ?_, slot, member, named, rfl⟩,
    octets, fun quiet => ?_⟩
  · have numbers : ∀ slot ∈ object.members, slot.2.Numbers (Streams py) :=
      collects.forall_slots (fun _ skipped => skipped.1) fun _ _ read => read.2.1
    have builds : object.Numbers (Builds py) :=
      (object.numbers_members spells.isObject).mpr fun slot member =>
        (numbers slot member).mono fun _ streams => streams.1
    obtain ⟨pairs, loaded, _⟩ := loads_of_spells spells accepts builds shallow
    exact ⟨_, loaded⟩
  · rw [octets, silent quiet, List.append_nil]

/-- Whatever order a walk that lets every exception propagate drives its stream in, as long as each
value it reads is due and each iterator it resumes is behind a value in a container of its kind, a
reply accepted is one `call` parses, and the walk consumed its result, exactly where it did not look
behind it. -/
theorem streamedResult_inPlace {walk : List Answer → Decision α} (complete : Complete source)
    (ran : streamedResult py where_ (walkOf py where_ (propagating walk) rounds) maxBodySize requestId 200
      source = .ok (.inr walked))
    (inPlace : ∀ step ∈ walked.steps, step.InPlace) :
    ∃ (object : Value) (read : Bytes) (trail : Blank), ReadWhole py (contents source) read object ∧
      walked.octets = read ++ trail.codes ∧
        ((∀ step ∈ walked.steps, ¬step.Behind) → walked.octets = read) := by
  refine readWhole_of_inPlace complete ran inPlace fun start stopped walks => ?_
  obtain ⟨_, _, ⟨⟩, walks⟩ := seq_eq_ok walks
  obtain ⟨told, between, drives, walks⟩ := seq_eq_ok walks
  obtain ⟨_, _, ⟨⟩, walks⟩ := seq_eq_ok walks
  cases walks
  exact fun step member refused => absurd refused (drive_propagating drives step member)

/-- The walk `[stream.value(8) for _ in stream.items()]`. -/
def valuesWalk : List Answer → Decision (List Json)
  | [] => .does (.iterate .array)
  | .yielded none :: heard => .answers (heard.filterMap fun answer =>
      match answer with
      | .value json => some json
      | _ => none).reverse
  | .yielded (some _) :: _ => .does (.value 8)
  | _ => .does (.next 0)

/-- The reply `{"result":[1,[2]],"id":"a"}`, cut inside the array. -/
def valuesSource : List Arrival :=
  [.octets 0x7B (str "\"result\":[1,"), .octets 0x5B (str "2]],\"id\":\"a\"\x7d")]

theorem valuesSource_complete : Complete valuesSource := by
  intro arrival member e
  rcases List.mem_pair.mp member with rfl | rfl <;> rintro ⟨⟩

theorem streamedResult_inPlace_values :
    ∃ walked, streamedResult cpython (str "m at u")
        (walkOf cpython (str "m at u") (propagating valuesWalk) 8) (16 : Nat) (str "a") 200 valuesSource =
        .ok (.inr walked) ∧ walked.answer = [.int 1, .array [.int 2]] ∧
      ∃ object, ReadWhole cpython (contents valuesSource) walked.octets object := by
  have ran : (streamedResult cpython (str "m at u")
      (walkOf cpython (str "m at u") (propagating valuesWalk) 8) (16 : Nat) (str "a") 200
      valuesSource).map (fun told => told.elim (fun _ => none) fun walked =>
        some (walked.answer, walked.steps.all fun step => decide (step.InPlace ∧ ¬step.Behind))) =
      .ok (some ([.int 1, .array [.int 2]], true)) := by decide +kernel
  obtain ⟨_ | walked, told, same⟩ := map_eq_ok ran
  · cases same
  obtain ⟨answer, orderly⟩ := Prod.mk.inj (Option.some.inj same)
  have each (step : WalkStep) (member : step ∈ walked.steps) : step.InPlace ∧ ¬step.Behind :=
    of_decide_eq_true (List.all_eq_true.mp orderly step member)
  obtain ⟨object, read, _, whole, _, exact_⟩ :=
    streamedResult_inPlace valuesSource_complete told fun step member => (each step member).1
  rw [← exact_ fun step member => (each step member).2] at whole
  exact ⟨walked, told, answer, object, whole⟩

/-- The walk `stream.skip()`, with `stream.peek()` behind it. -/
def lookingWalk : List Answer → Decision Unit
  | [] => .does .skip
  | [_] => .does .peek
  | _ => .answers ()

/-- The white space behind the result is consumed with it. -/
example : (streamedResult cpython (str "m at u")
    (walkOf cpython (str "m at u") (propagating lookingWalk) 8) (16 : Nat) (str "a") 200
    [.octets 0x7B (str "\"result\":1 ,\"id\":\"a\"\x7d")]).map
      (fun told => told.elim (fun _ => none) fun walked => some walked.octets) =
    .ok (some (str "1 ")) := by
  decide +kernel

/-- The walk `for _ in stream.items(): pass`. -/
def idleWalk : List Answer → Decision Unit
  | [] => .does (.iterate .array)
  | .yielded none :: _ => .answers ()
  | _ => .does (.next 0)

/-- The body `{"result":[,],"id":"a"}`. -/
def commaSource : List Arrival :=
  [.octets 0x7B (str "\"result\":[,],\"id\":\"a\"\x7d")]

theorem streamedResult_accepts_comma :
    (streamedResult cpython (str "m at u") (walkOf cpython (str "m at u") (propagating idleWalk) 8)
        (16 : Nat) (str "a") 200 commaSource).map (fun told => told.elim (fun _ => none) fun walked =>
          some (walked.answer, walked.octets)) = .ok (some ((), str "[,]")) ∧
      result cpython (loads cpython) (str "m") (str "u") (str "a") 200 (contents commaSource) =
        .error (.fetchError (str "m at u: not json ()")) := by
  decide +kernel

/-- A walk may let refusals pass of calls that spared what was due, while what was still to come was
UTF-8: with its calls in order, a reply accepted is one `call` parses all the same. -/
theorem streamedResult_still {walk : Walk α} (complete : Complete source)
    (ran : streamedResult py where_ (walkOf py where_ walk rounds) maxBodySize requestId 200 source =
      .ok (.inr walked))
    (inPlace : ∀ step ∈ walked.steps, step.InPlace)
    (still : ∀ step ∈ walked.steps, step.Refused → step.Still) :
    ∃ (object : Value) (read : Bytes) (trail : Blank), ReadWhole py (contents source) read object ∧
      walked.octets = read ++ trail.codes := by
  obtain ⟨object, read, trail, whole, octets, _⟩ :=
    readWhole_of_inPlace complete ran inPlace fun _ _ _ => still
  exact ⟨object, read, trail, whole, octets⟩

/-- The walk that tries the members of its result, goes on to the items where it is no object, asks for
each item within no octets at all, and skips it where that is refused. -/
def waryWalk : Walk Unit
  | [] => .does (.iterate .object)
  | [_] => .does (.next 0)
  | [.error _, _] => .does (.iterate .array)
  | .ok (.yielded none) :: _ => .answers ()
  | .ok (.yielded (some _)) :: _ => .does (.value 0)
  | .error _ :: _ => .does .skip
  | _ => .does (.next 1)

theorem streamedResult_still_wary :
    ∃ walked, streamedResult cpython (str "m at u") (walkOf cpython (str "m at u") waryWalk 12)
        (16 : Nat) (str "a") 200 valuesSource = .ok (.inr walked) ∧
      (∃ step ∈ walked.steps, step.Refused) ∧
      ∃ (object : Value) (read : Bytes) (trail : Blank),
        ReadWhole cpython (contents valuesSource) read object ∧
          walked.octets = read ++ trail.codes := by
  have ran : (streamedResult cpython (str "m at u") (walkOf cpython (str "m at u") waryWalk 12)
      (16 : Nat) (str "a") 200 valuesSource).map (fun told => told.elim (fun _ => none) fun walked =>
        some (walked.steps.any fun step => decide step.Refused, walked.steps.all fun step =>
          decide (step.InPlace ∧ (step.Refused → step.Still)))) =
      .ok (some (true, true)) := by decide +kernel
  obtain ⟨_ | walked, told, same⟩ := map_eq_ok ran
  · cases same
  obtain ⟨refused, kept⟩ := Prod.mk.inj (Option.some.inj same)
  obtain ⟨step, member, isRefused⟩ := List.any_eq_true.mp refused
  have each (step : WalkStep) (member : step ∈ walked.steps) :
      step.InPlace ∧ (step.Refused → step.Still) :=
    of_decide_eq_true (List.all_eq_true.mp kept step member)
  refine ⟨walked, told, ⟨step, member, of_decide_eq_true isRefused⟩, ?_⟩
  exact streamedResult_still valuesSource_complete told (fun step member => (each step member).1)
    fun step member => (each step member).2

/-- The walk `for _ in stream.items()` that asks for each item within one octet and lets a refusal
pass. -/
def stubbornWalk : Walk Unit
  | [] => .does (.iterate .array)
  | .ok (.yielded none) :: _ => .answers ()
  | .ok (.yielded (some _)) :: _ => .does (.value 1)
  | _ => .does (.next 0)

/-- The body `{"result":["],"id":"a"}`. -/
def quoteSource : List Arrival :=
  [.octets 0x7B (str "\"result\":[\"],\"id\":\"a\"\x7d")]

theorem streamedResult_accepts_quote :
    (streamedResult cpython (str "m at u") (walkOf cpython (str "m at u") stubbornWalk 8)
        (16 : Nat) (str "a") 200 quoteSource).map (fun told => told.elim (fun _ => none) fun walked =>
          some (walked.answer, walked.octets)) = .ok (some ((), str "[\"]")) ∧
      result cpython (loads cpython) (str "m") (str "u") (str "a") 200 (contents quoteSource) =
        .error (.fetchError (str "m at u: not json ()")) := by
  decide +kernel

end InOrder

end BitcoinCoreRpc
