/-
This file models the walk `call_stream` hands its stream to, and says which walks read a
value.

A walk is any function from what it has heard of its stream so far to what it does next:
a method of the stream, an iterator made or resumed, whichever of those it has made, an
answer or an exception. What it hears may be a refusal, which it may let pass. Beside the
run stands the place in the reply the walk would be in were its calls in order. As long
as every call is one that place allows, and every call that was refused is one that spares
the octet due, what was consumed leads to that place, so that a walk that came back to the
containers it began in and read something read a value, and white space behind it only
where it went on to look.
-/

import BitcoinCoreRpc.WalkSteps

namespace BitcoinCoreRpc

open JsonText Steps

/-! ### Walks -/

/-- How far an iterator over a container got. -/
inductive Stage
  | created
  | suspended
  | finished
deriving DecidableEq

/-- An iterator that `members` or `items` answered. -/
structure Iterator where
  kind : Kind
  stage : Stage

/-- What a walk does with its stream. `members` and `items` make an iterator and read nothing, the
first resumption of which enters the container. -/
inductive WalkOp
  | peek
  | skip
  | value (limit : Int)
  | end_
  | iterate (kind : Kind)
  | next (index : Nat)

inductive Decision (α : Type)
  | answers (answer : α)
  | raises (e : Exc)
  | does (op : WalkOp)

/-- A walk: what it decides of what it has heard, the last first. -/
abbrev Walk (α : Type) : Type :=
  List (Except Exc Answer) → Decision α

/-- The call of the stream, `none` where there is none: an iterator made, or one that is finished. -/
def WalkOp.call (iterators : List Iterator) : WalkOp → Option StreamCall
  | .peek => some .peek
  | .skip => some .skip
  | .value limit => some (.value limit)
  | .end_ => some .end_
  | .iterate _ => none
  | .next index =>
    match iterators[index]? with
    | some ⟨kind, .created⟩ => some (.enter kind)
    | some ⟨kind, .suspended⟩ => some (.resume kind)
    | _ => none

/-- What is heard where the stream was not called. -/
def WalkOp.idle : WalkOp → Answer
  | .iterate _ => .done
  | _ => .yielded none

/-- A generator that yielded is suspended, and one that returned or raised is finished. -/
def Stage.after : Except Exc Answer → Stage
  | .ok (.yielded (some _)) => .suspended
  | _ => .finished

def WalkOp.leaves (iterators : List Iterator) (heard : Except Exc Answer) : WalkOp → List Iterator
  | .iterate kind => iterators ++ [⟨kind, .created⟩]
  | .next index => iterators.modify index fun iterator => { iterator with stage := .after heard }
  | _ => iterators

/-! ### Places -/

/-- Where a call leaves a walk. -/
def StreamCall.leads (place : Place) (heard : Except Exc Answer) : StreamCall → Place
  | .peek | .end_ => place
  | .skip | .value _ =>
    match heard with
    | .ok _ => ⟨place.stack, false⟩
    | .error _ => place
  | .enter kind =>
    match heard with
    | .ok (.yielded (some _)) => ⟨kind :: place.stack, true⟩
    | .ok _ => ⟨place.stack, false⟩
    | .error _ => place
  | .resume _ =>
    match heard with
    | .ok (.yielded (some _)) => ⟨place.stack, true⟩
    | .ok _ => ⟨place.stack.tail, false⟩
    | .error _ => place

/-- A call is in order: a value is read where one is due, and an iterator goes on behind a value, in
a container of its kind. -/
def StreamCall.Fits (place : Place) : StreamCall → Prop
  | .peek | .end_ => True
  | .skip | .value _ | .enter _ => place.due = true
  | .resume kind => place.due = false ∧ place.stack.head? = some kind

instance StreamCall.decidableFits (place : Place) : (call : StreamCall) → Decidable (call.Fits place)
  | .peek | .end_ => inferInstanceAs (Decidable True)
  | .skip | .value _ | .enter _ => inferInstanceAs (Decidable (place.due = true))
  | .resume kind => inferInstanceAs (Decidable (place.due = false ∧ place.stack.head? = some kind))

/-- A call of a walk, where the walk stood and what came of it. -/
structure WalkStep where
  place : Place
  call : StreamCall
  before : Stream
  heard : Except Exc Answer
  after : Stream

/-- The call is in order. -/
def WalkStep.InPlace (step : WalkStep) : Prop :=
  step.call.Fits step.place

instance (step : WalkStep) : Decidable step.InPlace :=
  step.call.decidableFits step.place

/-- The call is made where no value is due and none is open: it looks behind the value. -/
def WalkStep.Behind (step : WalkStep) : Prop :=
  step.place.due = false ∧ step.place.stack = []

instance (step : WalkStep) : Decidable step.Behind :=
  inferInstanceAs (Decidable (_ ∧ _))

/-- The call is made where what is still to come is UTF-8, and it spares the octet due. -/
def WalkStep.Still (step : WalkStep) : Prop :=
  Utf8.Accepts step.before.utf8 (contents step.before.source) ∧
    ∀ octet ∈ step.before.octetDue, step.call.Spares octet

instance (step : WalkStep) : Decidable step.Still :=
  inferInstanceAs (Decidable (_ ∧ _))

/-- The call was refused, and the walk let it pass. -/
def WalkStep.Refused (step : WalkStep) : Prop :=
  step.heard.isOk = false

instance (step : WalkStep) : Decidable step.Refused :=
  inferInstanceAs (Decidable (_ = _))

/-! ### Runs -/

/-- What a walk answered, the octets it consumed, and its calls. -/
structure Walked (α : Type) where
  answer : α
  octets : Bytes
  steps : List WalkStep

section Runs

variable {α : Type} (py : Interpreter) (where_ : Str) (walk : Walk α)

/-- A walk driven on from what it has heard, for as many rounds at most. -/
def drive : Nat → List (Except Exc Answer) → List Iterator → Place →
    StreamStep (α × List WalkStep)
  | 0, _, _, _ => fail outOfRounds
  | rounds + 1, heard, iterators, place =>
    match walk heard with
    | .answers answer => return (answer, [])
    | .raises e => fail e
    | .does op =>
      match op.call iterators with
      | none => drive rounds (.ok op.idle :: heard) (op.leaves iterators (.ok op.idle)) place
      | some call => do
        let before ← read
        let outcome ← attempt (call.perform py where_)
        let after ← read
        let told ← drive rounds (outcome :: heard) (op.leaves iterators outcome)
          (call.leads place outcome)
        return (told.1, ⟨place, call, before, outcome, after⟩ :: told.2)

/-- `walk(stream)`, at a value. -/
def walkOf (rounds : Nat) : StreamStep (Walked α) := do
  let start ← read
  let told ← drive py where_ walk rounds [] [] ⟨[], true⟩
  let stopped ← read
  return ⟨told.1, start.unread.take (stopped.position - start.position), told.2⟩

end Runs

/-! ### Along a value -/

/-- A walk that lets every exception of its stream propagate decides of answers alone. -/
def propagating {α : Type} (walk : List Answer → Decision α) : Walk α
  | .error e :: _ => .raises e
  | heard => walk (heard.filterMap Except.toOption)

/-- White space and nothing else. -/
def IsBlank (text : Bytes) : Prop :=
  ∃ pad : Blank, text = pad.codes

/-- What a walk may have read behind a value: white space, and nothing where it was quiet. -/
def Trailing (quiet : Prop) (text : Bytes) : Prop :=
  IsBlank text ∧ (quiet → text = [])

/-- What takes a reader from one place of a value to another. -/
abbrev Along (py : Interpreter) (quiet : Prop) : Place → Bytes → Place → Prop :=
  Leads (Streams py) none (Trailing quiet)

theorem trailing_nil {quiet : Prop} : Trailing quiet [] :=
  ⟨⟨.none, rfl⟩, fun _ => rfl⟩

theorem allows_none (depth : Nat) : Allows none depth := by
  rintro _ ⟨⟩

section Courses

variable {py : Interpreter} {where_ : Str} {document text : Bytes} {start stream after : Stream}
  {place place' : Place} {call : StreamCall} {quiet : Prop}

/-- White space leads nowhere. -/
theorem Along.blank (pad : Blank) (loud : place = ⟨[], false⟩ → ¬quiet) :
    Along py quiet place pad.codes place := by
  obtain ⟨stack, due⟩ := place
  cases due with
  | true => exact .pad pad
  | false =>
    cases stack with
    | nil =>
      refine .trail pad ?_
      rintro _ ⟨⟨trail, rfl⟩, _⟩
      exact ⟨⟨pad.append trail, rfl⟩, fun silent => absurd silent (loud rfl)⟩
    | cons kind stack => exact .gap pad

/-- A walk on its way through the value it began at, where its calls should have led it. -/
structure Course (py : Interpreter) (quiet : Prop) (document : Bytes) (start : Stream) (place : Place)
    (stream : Stream) : Prop where
  ready : stream.Ready document
  unkept : stream.kept = none
  open_ : stream.open_ = start.open_ + place.stack.length
  text : ∃ text, Stream.Consumes start text stream ∧ Along py quiet ⟨[], true⟩ text place ∧
    (place = ⟨[], true⟩ → IsBlank text)

theorem Course.new (ready : start.Ready document) (unkept : start.kept = none) :
    Course py quiet document start ⟨[], true⟩ start where
  ready := ready
  unkept := unkept
  open_ := (add_zero _).symm
  text := ⟨[], .refl ready.sane, .refl _, fun _ => ⟨.none, rfl⟩⟩

/-- A text that was consumed and leads on is on the way. -/
theorem Course.onward (course : Course py quiet document start place stream)
    (consumes : Stream.Consumes stream text after) (leads : Along py quiet place text place')
    (ready : after.Ready document) (begun : place' ≠ ⟨[], true⟩)
    (open_ : after.open_ = start.open_ + place'.stack.length) :
    Course py quiet document start place' after where
  ready := ready
  unkept := consumes.kept_none course.unkept
  open_ := open_
  text := by
    obtain ⟨before, consumed, led, _⟩ := course.text
    exact ⟨_, consumed.trans consumes, led.trans leads, fun same => absurd same begun⟩

/-- So is white space. -/
theorem Course.rest (course : Course py quiet document start place stream)
    (loud : place = ⟨[], false⟩ → ¬quiet) (skims : Skims document stream after) :
    Course py quiet document start place after := by
  obtain ⟨pad, passes, ready⟩ := skims
  refine ⟨ready, passes.kept_none course.unkept, passes.open_.trans course.open_, ?_⟩
  obtain ⟨before, consumed, led, blank⟩ := course.text
  refine ⟨_, consumed.trans passes.toConsumes, led.trans (Along.blank pad loud), fun same => ?_⟩
  obtain ⟨lead, rfl⟩ := blank same
  exact ⟨lead.append pad, rfl⟩

/-- A value that was read is on the way, where one was due. -/
theorem Course.value {pad : Blank} {value : Value}
    (course : Course py quiet document start place stream) (due : place.due = true)
    (numbers : value.Numbers (Streams py))
    (passes : Stream.Passes stream (pad.codes ++ value.text) after) (ready : after.Ready document) :
    Course py quiet document start ⟨place.stack, false⟩ after := by
  obtain ⟨stack, _⟩ := place
  obtain rfl := due
  refine course.onward passes.toConsumes ?_ ready (by rintro ⟨⟩) (passes.open_.trans course.open_)
  exact Leads.trans (.pad pad) (.value numbers (allows_none _))

/-- A call in order that is answered leads on. -/
theorem Course.answered {answer : Answer} (course : Course py quiet document start place stream)
    (fits : call.Fits place) (loud : place = ⟨[], false⟩ → ¬quiet)
    (ran : call.perform py where_ stream = (.ok answer, after)) :
    Course py quiet document start (call.leads place (.ok answer)) after := by
  have sane := course.ready.sane
  have ready : after.Ready document := by
    obtain ⟨document', ready, _, same⟩ := @perform_leaves py where_ _ _ call course.ready course.unkept
    rw [ran] at ready same
    rwa [same (by rintro ⟨⟩)] at ready
  cases call with
  | peek =>
    obtain ⟨octet, last, looks, done⟩ := seq_eq_ok ran
    obtain ⟨pad, _, passes, _⟩ := nextOctet_eq_ok sane looks
    cases done
    exact course.rest loud ⟨pad, passes, ready⟩
  | end_ =>
    obtain ⟨_, last, ends, done⟩ := seq_eq_ok ran
    obtain ⟨pad, passes, _⟩ := end_eq_ok sane ends
    cases done
    exact course.rest loud ⟨pad, passes, ready⟩
  | skip =>
    obtain ⟨_, last, skips, done⟩ := seq_eq_ok ran
    obtain ⟨pad, value, passes, numbers, _⟩ := skip_eq_ok sane skips
    cases done
    exact course.value fits numbers passes ready
  | value limit =>
    obtain ⟨json, last, values, done⟩ := seq_eq_ok ran
    obtain ⟨pad, value, passes, numbers, _⟩ := value_eq_ok sane course.unkept values
    cases done
    exact course.value fits numbers passes ready
  | enter kind =>
    obtain ⟨found, last, enters, done⟩ := seq_eq_ok ran
    cases done
    rcases enter_eq_ok sane course.unkept enters with
      ⟨rfl, pad, lead, passes⟩ | ⟨yielded, pad, lead, taken, rfl, consumes, open_, _⟩
    · have numbers : (Value.empty kind lead).Numbers (Streams py) := trivial
      exact course.value fits numbers passes ready
    · obtain ⟨stack, _⟩ := place
      obtain rfl := fits
      refine course.onward consumes ?_ ready (by rintro ⟨⟩) ?_
      · exact Leads.trans (.pad pad) (.enter_pad lead taken)
      · rw [open_, course.open_]
        simp only [StreamCall.leads, List.length_cons]
        omega
  | resume kind =>
    obtain ⟨found, last, resumes, done⟩ := seq_eq_ok ran
    cases done
    obtain ⟨_ | ⟨top, stack⟩, _⟩ := place
    · cases fits.2
    obtain ⟨rfl, same⟩ := fits
    obtain rfl := Option.some.inj same
    have opened := course.open_
    simp only [List.length_cons] at opened
    rcases resume_eq_ok sane course.unkept resumes with
      ⟨rfl, pad, consumes, open_⟩ | ⟨yielded, pad, taken, rfl, passes, _⟩
    · refine course.onward consumes ?_ ready (by rintro ⟨⟩) ?_
      · exact Leads.trans (.gap pad) (.leave (allows_none _))
      · rw [open_]
        simp only [StreamCall.leads, List.tail_cons]
        omega
    · refine course.onward passes.toConsumes ?_ ready (by rintro ⟨⟩) (passes.open_.trans course.open_)
      exact Leads.trans (.gap pad) (.next taken)

/-- A refused call leads nowhere. -/
theorem StreamCall.leads_refused (place : Place) (e : Exc) : (call : StreamCall) →
    call.leads place (.error e) = place
  | .peek | .skip | .value _ | .enter _ | .resume _ | .end_ => rfl

/-- A call in order leads on, answered, or refused where it spares what is due. -/
theorem Course.called {heard : Except Exc Answer} (course : Course py quiet document start place stream)
    (inPlace : WalkStep.InPlace ⟨place, call, stream, heard, after⟩)
    (still : WalkStep.Refused ⟨place, call, stream, heard, after⟩ →
      WalkStep.Still ⟨place, call, stream, heard, after⟩)
    (loud : WalkStep.Behind ⟨place, call, stream, heard, after⟩ → ¬quiet)
    (ran : call.perform py where_ stream = (heard, after)) :
    Course py quiet document start (call.leads place heard) after := by
  have loud' (same : place = ⟨[], false⟩) : ¬quiet := loud (by rw [same]; exact ⟨rfl, rfl⟩)
  cases heard with
  | ok answer => exact course.answered inPlace loud' ran
  | error e =>
    obtain ⟨accepts, spares⟩ := still rfl
    rw [StreamCall.leads_refused]
    exact course.rest loud'
      (perform_skims course.ready ⟨course.ready.complete, accepts⟩ course.unkept spares ran)

/-- A walk whose calls were all in order, and whose refused calls all spared what was due, is on its
way. -/
theorem Course.driven {α : Type} {walk : Walk α} {rounds : Nat} {heard : List (Except Exc Answer)}
    {iterators : List Iterator} {told : α × List WalkStep}
    (course : Course py quiet document start place stream)
    (ran : drive py where_ walk rounds heard iterators place stream = (.ok told, after))
    (inPlace : ∀ step ∈ told.2, step.InPlace) (still : ∀ step ∈ told.2, step.Refused → step.Still)
    (loud : ∀ step ∈ told.2, step.Behind → ¬quiet) :
    ∃ place', Course py quiet document start place' after := by
  induction rounds generalizing stream heard iterators place told with
  | zero => cases ran
  | succ rounds inductionHypothesis =>
    rw [drive] at ran
    cases decided : walk heard with
    | answers answer =>
      rw [decided] at ran
      cases ran
      exact ⟨place, course⟩
    | raises e =>
      rw [decided] at ran
      cases ran
    | does op =>
      rw [decided] at ran
      dsimp only at ran
      cases called : op.call iterators with
      | none =>
        rw [called] at ran
        exact inductionHypothesis course ran inPlace still loud
      | some call =>
        rw [called] at ran
        obtain ⟨_, _, ⟨⟩, ran⟩ := seq_eq_ok ran
        obtain ⟨outcome, between, attempted, ran⟩ := seq_eq_ok ran
        obtain ⟨_, _, ⟨⟩, ran⟩ := seq_eq_ok ran
        obtain ⟨told', last, drives, done⟩ := seq_eq_ok ran
        cases done
        have performed : call.perform py where_ stream = (outcome, between) := by
          cases attempted
          rfl
        obtain ⟨here, later⟩ := List.forall_mem_cons.mp inPlace
        obtain ⟨here', later'⟩ := List.forall_mem_cons.mp still
        obtain ⟨here₃, later₃⟩ := List.forall_mem_cons.mp loud
        exact inductionHypothesis (course.called here here' here₃ performed) drives later later' later₃

/-- So it read a value where it came back to the containers it began in and not to where it began,
and white space behind the value at most, none where it did not look there. -/
theorem walkOf_reads {α : Type} {walk : Walk α} {rounds : Nat} {walked : Walked α}
    (ready : start.Ready document) (unkept : start.kept = none) (solid : NoBlank start.unread)
    (ran : walkOf py where_ walk rounds start = (.ok walked, after))
    (inPlace : ∀ step ∈ walked.steps, step.InPlace)
    (still : ∀ step ∈ walked.steps, step.Refused → step.Still) (back : after.open_ = start.open_)
    (moved : after.position ≠ start.position) :
    ∃ (value : Value) (trail : Blank), Stream.Passes start (value.text ++ trail.codes) after ∧
      value.Numbers (Streams py) ∧ walked.octets = value.text ++ trail.codes ∧
        ((∀ step ∈ walked.steps, ¬step.Behind) → trail.codes = []) := by
  obtain ⟨_, _, ⟨⟩, ran⟩ := seq_eq_ok ran
  obtain ⟨told, stopped, drives, ran⟩ := seq_eq_ok ran
  obtain ⟨_, _, ⟨⟩, ran⟩ := seq_eq_ok ran
  cases ran
  obtain ⟨place, course⟩ := (Course.new ready unkept).driven drives inPlace still
    fun step member behind (quiet : ∀ step ∈ told.2, ¬step.Behind) => quiet step member behind
  obtain ⟨text, consumes, leads, begun⟩ := course.text
  obtain ⟨stack, due⟩ := place
  have home : stack = [] := by
    have open_ := course.open_
    rw [back] at open_
    refine List.length_eq_zero_iff.mp ?_
    change start.open_ = start.open_ + (stack.length : Int) at open_
    omega
  subst home
  have octets : start.unread.take (after.position - start.position) = text := by
    rw [consumes.position, Nat.add_sub_cancel_left, consumes.unread, List.take_left]
  cases due with
  | true =>
    obtain ⟨pad, rfl⟩ := begun rfl
    have nothing : pad.codes = [] := by
      refine @no_pad pad after.unread [] ?_
      rwa [List.append_nil, ← consumes.unread]
    rw [consumes.position, nothing] at moved
    exact absurd rfl moved
  | false =>
    obtain ⟨pad, value, _, rfl, numbers, _, ⟨trail, rfl⟩, silent⟩ := leads.value_of trailing_nil
    have none_ : pad.codes = [] := by
      refine @no_pad pad value.text (trail.codes ++ after.unread) ?_
      rwa [← List.append_assoc, ← consumes.unread]
    rw [none_, List.nil_append] at consumes octets
    exact ⟨value, trail, ⟨consumes, back⟩, numbers, octets, silent⟩

/-- Where every exception propagates, a walk that came to an answer heard no other. -/
theorem drive_propagating {α : Type} {walk : List Answer → Decision α} {rounds : Nat}
    {heard : List (Except Exc Answer)} {iterators : List Iterator} {told : α × List WalkStep}
    (ran : drive py where_ (propagating walk) rounds heard iterators place stream = (.ok told, after)) :
    ∀ step ∈ told.2, ¬step.Refused := by
  induction rounds generalizing stream heard iterators place told with
  | zero => cases ran
  | succ rounds inductionHypothesis =>
    rw [drive] at ran
    cases decided : propagating walk heard with
    | answers answer =>
      rw [decided] at ran
      cases ran
      exact List.forall_mem_nil _
    | raises e =>
      rw [decided] at ran
      cases ran
    | does op =>
      rw [decided] at ran
      dsimp only at ran
      cases called : op.call iterators with
      | none =>
        rw [called] at ran
        exact inductionHypothesis ran
      | some call =>
        rw [called] at ran
        obtain ⟨_, _, ⟨⟩, ran⟩ := seq_eq_ok ran
        obtain ⟨outcome, between, _, ran⟩ := seq_eq_ok ran
        obtain ⟨_, _, ⟨⟩, ran⟩ := seq_eq_ok ran
        obtain ⟨told', last, drives, done⟩ := seq_eq_ok ran
        cases done
        refine List.forall_mem_cons.mpr ⟨?_, inductionHypothesis drives⟩
        intro refused
        cases outcome with
        | ok answer => cases refused
        | error e => cases rounds <;> cases drives

end Courses

end BitcoinCoreRpc
