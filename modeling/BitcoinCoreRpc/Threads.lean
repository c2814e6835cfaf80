/-
This file is threads that share a state under one lock, as a library.

A job is a computation over the state taken a step at a time: between two of its steps any
other thread may take one of its own. Nothing but the lock keeps the others out of the
state while a job is at work, so that they are out is a theorem. It is the one invariant
here, that whoever is inside is alone and what is left of his job comes to what the
whole of it would have; the rest is read off it. What was served is one job after
another, in the order the lock was taken, and nobody waits for a lock that cannot come
to him.
-/

import Mathlib.Logic.Function.Basic
import Mathlib.Logic.Relation

namespace Threads

/-! ### Jobs -/

/-- A computation over a state, a step at a time. -/
inductive Job (σ α : Type) : Type
  | done (answer : α)
  | step (change : σ → σ) (next : σ → Job σ α)

variable {ι σ α β ε : Type}

namespace Job

/-- The whole of a job, nobody else about. -/
def run : Job σ α → σ → α × σ
  | done answer, state => (answer, state)
  | step change next, state => (next state).run (change state)

/-- A job and what is done with its answer. -/
def bind : Job σ α → (α → Job σ β) → Job σ β
  | done answer, rest => rest answer
  | step change next, rest => .step change fun state => (next state).bind rest

/-- A computation that is a single step. -/
def atomic (f : σ → α × σ) : Job σ α :=
  .step (fun state => (f state).2) fun state => .done (f state).1

/-- A job that may fail, and what is done with its answer where it did not. -/
def seq (first : Job σ (Except ε α)) (rest : α → Job σ (Except ε β)) : Job σ (Except ε β) :=
  first.bind fun outcome => match outcome with
    | .ok answer => rest answer
    | .error e => .done (.error e)

@[simp] theorem run_done (answer : α) (state : σ) : (done answer : Job σ α).run state = (answer, state) :=
  rfl

@[simp] theorem run_atomic (f : σ → α × σ) (state : σ) : (atomic f).run state = f state := rfl

@[simp] theorem run_bind (job : Job σ α) (rest : α → Job σ β) (state : σ) :
    (job.bind rest).run state = (rest (job.run state).1).run (job.run state).2 := by
  induction job generalizing state with
  | done answer => rfl
  | step change next inductionHypothesis => exact inductionHypothesis state (change state)

theorem run_seq (first : Job σ (Except ε α)) (rest : α → Job σ (Except ε β)) (state : σ) :
    (first.seq rest).run state = match first.run state with
      | (.ok answer, after) => (rest answer).run after
      | (.error e, after) => (.error e, after) := by
  rw [seq, run_bind]
  rcases first.run state with ⟨_ | _, after⟩ <;> rfl

end Job

/-! ### Threads -/

/-- Where a thread is: at its own business, before the lock with a job, or inside, with what is
left of it. -/
inductive Phase (σ α : Type)
  | idle
  | waiting (job : Job σ α)
  | inside (job rest : Job σ α)

/-- What a thread that is not idle asked for. -/
def Phase.asked : Phase σ α → Option (Job σ α)
  | idle => none
  | waiting job => some job
  | inside job _ => some job

/-- Threads, the state they share, whether the lock is held, and what was served so far. -/
structure System (ι σ α : Type) where
  state : σ
  held : Bool
  phase : ι → Phase σ α
  served : List (ι × Job σ α × α)

/-- Threads that have done nothing yet. -/
def System.new (state : σ) : System ι σ α := ⟨state, false, fun _ => .idle, []⟩

/-- What a thread was answered, of what was served. -/
def answers [DecidableEq ι] (served : List (ι × Job σ α × α)) (thread : ι) : List α :=
  served.filterMap fun entry => if entry.1 = thread then some entry.2.2 else none

/-- One move of one thread. What a thread may ask for depends on what it was answered. -/
inductive Move [DecidableEq ι] (may : ι → List α → Job σ α → Prop) :
    System ι σ α → System ι σ α → Prop
  | arrive {system : System ι σ α} {thread : ι} {job : Job σ α} (idle : system.phase thread = .idle)
    (asks : may thread (answers system.served thread) job) :
    Move may system { system with phase := Function.update system.phase thread (.waiting job) }
  | enter {system : System ι σ α} {thread : ι} {job : Job σ α}
    (waits : system.phase thread = .waiting job) (free : system.held = false) :
    Move may system { system with
      held := true, phase := Function.update system.phase thread (.inside job job) }
  | work {system : System ι σ α} {thread : ι} {job : Job σ α} {change : σ → σ} {next : σ → Job σ α}
    (inside : system.phase thread = .inside job (.step change next)) :
    Move may system { system with
      state := change system.state
      phase := Function.update system.phase thread (.inside job (next system.state)) }
  | leave {system : System ι σ α} {thread : ι} {job : Job σ α} {answer : α}
    (inside : system.phase thread = .inside job (.done answer)) :
    Move may system { system with
      held := false
      phase := Function.update system.phase thread .idle
      served := system.served ++ [(thread, job, answer)] }

/-- Any number of moves, of any threads in any order. -/
abbrev Moves [DecidableEq ι] (may : ι → List α → Job σ α → Prop) :
    System ι σ α → System ι σ α → Prop :=
  Relation.ReflTransGen (Move may)

/-! ### One after another -/

/-- Jobs run whole, one after another, take one state to another. -/
inductive Serial : σ → List (ι × Job σ α × α) → σ → Prop
  | nil (state : σ) : Serial state [] state
  | snoc {start between after : σ} {served : List (ι × Job σ α × α)} {thread : ι} {job : Job σ α}
    {answer : α} (before : Serial start served between) (ran : job.run between = (answer, after)) :
    Serial start (served ++ [(thread, job, answer)]) after

theorem serial_nil {start after : σ} :
    Serial start ([] : List (ι × Job σ α × α)) after → after = start := by
  generalize nothing : ([] : List (ι × Job σ α × α)) = served
  rintro (_ | _)
  · rfl
  · simp at nothing

/-- What every job keeps is kept by all of them. -/
theorem Serial.keeps {good : σ → Prop} {start after : σ} {served : List (ι × Job σ α × α)}
    (serial : Serial start served after) (holds : good start)
    (kept : ∀ entry ∈ served, ∀ state, good state → good (entry.2.1.run state).2) : good after := by
  induction serial with
  | nil => exact holds
  | snoc _ ran inductionHypothesis =>
    have between := inductionHypothesis fun entry member =>
      kept entry (List.mem_append_left _ member)
    have last := kept _ (List.mem_append_right _ List.mem_cons_self) _ between
    rwa [ran] at last

/-- Each of some jobs ran on the state those before it left. -/
theorem Serial.split {start after : σ} {earlier later : List (ι × Job σ α × α)} {thread : ι}
    {job : Job σ α} {answer : α}
    (serial : Serial start (earlier ++ (thread, job, answer) :: later) after) :
    ∃ between, Serial start earlier between ∧ (job.run between).1 = answer := by
  generalize whole : earlier ++ (thread, job, answer) :: later = served at serial
  induction serial generalizing later with
  | nil => simp at whole
  | @snoc between after served thread' job' answer' before ran inductionHypothesis =>
    rcases List.eq_nil_or_concat later with rfl | ⟨later, last, rfl⟩
    · obtain ⟨rfl, same⟩ := List.append_inj' whole rfl
      cases same
      exact ⟨between, before, congrArg Prod.fst ran⟩
    · rw [List.concat_eq_append, ← List.cons_append, ← List.append_assoc] at whole
      exact inductionHypothesis (List.append_inj' whole rfl).1

/-! ### The lock -/

/-- Whoever is inside is alone there, with the lock, and what is left of his job comes to what the
whole of it would have, on the state the jobs served before it left. -/
structure Guarded (start : σ) (system : System ι σ α) : Prop where
  alone : ∀ thread job rest, system.phase thread = .inside job rest →
    system.held = true ∧ ∀ other job' rest', system.phase other = .inside job' rest' → other = thread
  someone : system.held = true → ∃ thread job rest, system.phase thread = .inside job rest
  serial : ∃ between, Serial start system.served between ∧
    (system.held = false → system.state = between) ∧
    ∀ thread job rest, system.phase thread = .inside job rest →
      rest.run system.state = job.run between

theorem guarded_new (state : σ) : Guarded state (System.new state : System ι σ α) where
  alone _ _ _ inside := by cases inside
  someone held := by cases held
  serial := ⟨state, .nil state, fun _ => rfl, fun _ _ _ inside => by cases inside⟩

variable [DecidableEq ι] {may : ι → List α → Job σ α → Prop}

/-- A thread's phase, and the others'. -/
theorem update_inside {phase : ι → Phase σ α} {thread other : ι} {now : Phase σ α}
    {job rest : Job σ α} (inside : Function.update phase thread now other = .inside job rest) :
    (other = thread ∧ now = .inside job rest) ∨ (other ≠ thread ∧ phase other = .inside job rest) := by
  by_cases same : other = thread
  · subst same
    rw [Function.update_self] at inside
    exact .inl ⟨rfl, inside⟩
  · rw [Function.update_of_ne same] at inside
    exact .inr ⟨same, inside⟩

theorem Guarded.move {start : σ} {system next : System ι σ α} (guarded : Guarded start system)
    (move : Move may system next) : Guarded start next := by
  obtain ⟨between, serial, free_, left⟩ := guarded.serial
  cases move with
  | @arrive thread job idle asks =>
    have unmoved {other : ι} {job' rest' : Job σ α}
        (inside : Function.update system.phase thread (.waiting job) other = .inside job' rest') :
        system.phase other = .inside job' rest' := by
      rcases update_inside inside with ⟨_, waits⟩ | ⟨_, there⟩
      · cases waits
      · exact there
    refine ⟨fun other job' rest' inside => ?_, fun held => ?_, between, serial, free_, ?_⟩
    · obtain ⟨held, only⟩ := guarded.alone other job' rest' (unmoved inside)
      exact ⟨held, fun another _ _ there => only another _ _ (unmoved there)⟩
    · obtain ⟨other, job', rest', there⟩ := guarded.someone held
      have different : other ≠ thread := by
        rintro rfl
        cases idle.symm.trans there
      exact ⟨other, job', rest', (Function.update_of_ne different _ _).trans there⟩
    · exact fun other job' rest' inside => left other job' rest' (unmoved inside)
  | @enter thread job waits free =>
    -- nobody was inside, the lock being free
    have only {other : ι} {job' rest' : Job σ α}
        (inside : Function.update system.phase thread (.inside job job) other = .inside job' rest') :
        other = thread ∧ job = job' ∧ job = rest' := by
      rcases update_inside inside with ⟨same, taken⟩ | ⟨_, there⟩
      · cases taken
        exact ⟨same, rfl, rfl⟩
      · cases free.symm.trans (guarded.alone _ _ _ there).1
    refine ⟨fun other _ _ inside => ⟨rfl, fun another _ _ there => ?_⟩, fun _ => ?_, between, serial,
      nofun, fun other _ _ inside => ?_⟩
    · exact (only there).1.trans (only inside).1.symm
    · exact ⟨thread, job, job, Function.update_self ..⟩
    · obtain ⟨_, rfl, rfl⟩ := only inside
      exact congrArg _ (free_ free)
  | @work thread job change following inside =>
    obtain ⟨held, single⟩ := guarded.alone _ _ _ inside
    have only {other : ι} {job' rest' : Job σ α}
        (there : Function.update system.phase thread (.inside job (following system.state)) other =
          .inside job' rest') : other = thread ∧ job = job' ∧ following system.state = rest' := by
      rcases update_inside there with ⟨same, now⟩ | ⟨different, there⟩
      · cases now
        exact ⟨same, rfl, rfl⟩
      · exact absurd (single _ _ _ there) different
    refine ⟨fun other _ _ there => ⟨held, fun another _ _ elsewhere => ?_⟩, fun _ => ?_, between, serial,
      fun free => ?_, fun other _ _ there => ?_⟩
    · exact (only elsewhere).1.trans (only there).1.symm
    · exact ⟨thread, job, _, Function.update_self ..⟩
    · cases held.symm.trans free
    · obtain ⟨_, rfl, rfl⟩ := only there
      exact left _ _ _ inside
  | @leave thread job answer inside =>
    obtain ⟨held, single⟩ := guarded.alone _ _ _ inside
    have nobody {other : ι} {job' rest' : Job σ α} :
        Function.update system.phase thread .idle other ≠ .inside job' rest' := by
      intro there
      rcases update_inside there with ⟨_, now⟩ | ⟨different, there⟩
      · cases now
      · exact different (single _ _ _ there)
    refine ⟨fun _ _ _ there => absurd there nobody, nofun, system.state, ?_, fun _ => rfl,
      fun _ _ _ there => absurd there nobody⟩
    exact .snoc serial (left _ _ _ inside).symm

/-- However the threads move, whoever is inside is alone there. -/
theorem guarded_moves {start : σ} {system : System ι σ α} (moves : Moves may (.new start) system) :
    Guarded start system := by
  induction moves with
  | refl => exact guarded_new start
  | tail _ move inductionHypothesis => exact inductionHypothesis.move move

/-- Every job was asked for by its thread, on what it was answered before. -/
structure Asked (may : ι → List α → Job σ α → Prop) (system : System ι σ α) : Prop where
  served : ∀ earlier thread job answer later,
    system.served = earlier ++ (thread, job, answer) :: later → may thread (answers earlier thread) job
  now : ∀ thread job, (system.phase thread).asked = some job →
    may thread (answers system.served thread) job

theorem answers_other {served : List (ι × Job σ α × α)} {thread other : ι} {job : Job σ α}
    {answer : α} (different : other ≠ thread) :
    answers (served ++ [(thread, job, answer)]) other = answers served other := by
  simp [answers, List.filterMap_append, different.symm]

/-- A move that asks for nothing new. -/
theorem asked_update {phase : ι → Phase σ α} {thread : ι} {now : Phase σ α}
    (same : now.asked = (phase thread).asked) (other : ι) :
    (Function.update phase thread now other).asked = (phase other).asked := by
  by_cases here : other = thread
  · rw [here, Function.update_self, same]
  · rw [Function.update_of_ne here]

theorem Asked.move {system next : System ι σ α} (asked : Asked may system)
    (move : Move may system next) : Asked may next := by
  cases move with
  | @arrive thread job idle asks =>
    refine ⟨asked.served, fun other job' asks' => ?_⟩
    by_cases same : other = thread
    · subst same
      dsimp only at asks'
      rw [Function.update_self] at asks'
      cases asks'
      exact asks
    · dsimp only at asks'
      rw [Function.update_of_ne same] at asks'
      exact asked.now other job' asks'
  | @enter thread job waits free =>
    refine ⟨asked.served, fun other job' asks => asked.now other job' ?_⟩
    rwa [asked_update (by rw [waits]; rfl)] at asks
  | @work thread job change following inside =>
    refine ⟨asked.served, fun other job' asks => asked.now other job' ?_⟩
    rwa [asked_update (by rw [inside]; rfl)] at asks
  | @leave thread job answer inside =>
    refine ⟨fun earlier other job' answer' later whole => ?_, fun other job' asks => ?_⟩
    · rcases List.eq_nil_or_concat later with rfl | ⟨later, last, rfl⟩
      · obtain ⟨rfl, same⟩ := List.append_inj' whole rfl
        cases same
        exact asked.now thread job (by rw [inside]; rfl)
      · rw [List.concat_eq_append, ← List.cons_append, ← List.append_assoc] at whole
        exact asked.served _ _ _ _ _ (List.append_inj' whole rfl).1
    · dsimp only at asks ⊢
      by_cases same : other = thread
      · subst same
        rw [Function.update_self] at asks
        cases asks
      · rw [Function.update_of_ne same] at asks
        rw [answers_other same]
        exact asked.now other job' asks

theorem asked_moves {start : σ} {system : System ι σ α} (moves : Moves may (.new start) system) :
    Asked may system := by
  induction moves with
  | refl =>
    refine ⟨fun earlier _ _ _ _ nothing => ?_, fun _ _ asks => by cases asks⟩
    exact absurd nothing.symm (List.append_ne_nil_of_right_ne_nil earlier (List.cons_ne_nil _ _))
  | tail _ move inductionHypothesis => exact inductionHypothesis.move move

/-! ### Getting through -/

variable (may) in
/-- Whoever is inside is answered and gets out, by moves of his own. -/
theorem moves_leave (rest : Job σ α) : ∀ (system : System ι σ α) {thread : ι} {job : Job σ α},
    system.phase thread = .inside job rest →
      ∃ after answer, Moves may system after ∧ after.held = false ∧
        after.served = system.served ++ [(thread, job, answer)] ∧
        ∀ other, other ≠ thread → after.phase other = system.phase other := by
  induction rest with
  | done answer =>
    intro system thread job inside
    exact ⟨_, answer, .single (.leave inside), rfl, rfl,
      fun other different => Function.update_of_ne different _ _⟩
  | step change next inductionHypothesis =>
    intro system thread job inside
    let worked : System ι σ α := { system with
      state := change system.state
      phase := Function.update system.phase thread (.inside job (next system.state)) }
    obtain ⟨after, answer, moves, free, served, others⟩ :=
      inductionHypothesis system.state worked (Function.update_self ..)
    refine ⟨after, answer, .head (.work inside) moves, free, served, fun other different => ?_⟩
    exact (others other different).trans (Function.update_of_ne different _ _)

/-- Nobody waits for ever of necessity: wherever the others are, a thread that waits can still be
served. -/
theorem moves_serve {start : σ} {system : System ι σ α} {thread : ι} {job : Job σ α}
    (moves : Moves may (.new start) system) (waits : system.phase thread = .waiting job) :
    ∃ after answer earlier, Moves may system after ∧
      after.served = earlier ++ [(thread, job, answer)] := by
  have guarded := guarded_moves moves
  have serve {now : System ι σ α} (reached : Moves may system now) (free : now.held = false)
      (still : now.phase thread = .waiting job) :
      ∃ after answer earlier, Moves may system after ∧
        after.served = earlier ++ [(thread, job, answer)] := by
    let entered : System ι σ α := { now with
      held := true, phase := Function.update now.phase thread (.inside job job) }
    obtain ⟨after, answer, later, _, served, _⟩ :=
      moves_leave may job entered (Function.update_self ..)
    exact ⟨after, answer, _, (reached.tail (.enter still free)).trans later, served⟩
  cases free : system.held with
  | false => exact serve .refl free waits
  | true =>
    obtain ⟨other, job', rest', inside⟩ := guarded.someone free
    obtain ⟨between, _, reached, released, _, others⟩ := moves_leave may rest' system inside
    refine serve reached released ((others thread ?_).trans waits)
    rintro rfl
    cases waits.symm.trans inside

end Threads
