/-
This file is computations over a state that may fail, as a library.

A failure keeps the state it happened in, which is what an exception caught by the
caller of a method leaves of the object. Two computations in a row are run by the
rules of this file: what the first came to is what decides, and a run that succeeded
went through a state between the two.
-/

import Mathlib.Logic.Basic

namespace Steps

/-- A computation over a state, with the state it leaves whether or not it fails. -/
def Step (ε σ α : Type) : Type := σ → Except ε α × σ

variable {ε σ α β : Type}

instance : Monad (Step ε σ) where
  pure answer state := (.ok answer, state)
  bind first rest state :=
    match first state with
    | (.ok answer, after) => rest answer after
    | (.error e, after) => (.error e, after)

/-- The state. -/
def read : Step ε σ σ := fun state => (.ok state, state)

/-- Replaces the state. -/
def change (f : σ → σ) : Step ε σ Unit := fun state => (.ok (), f state)

/-- Fails, the state as it is. -/
def fail (e : ε) : Step ε σ α := fun state => (.error e, state)

/-- A computation whose failure is an answer. -/
def attempt (step : Step ε σ α) : Step ε σ (Except ε α) := fun state =>
  (.ok (step state).1, (step state).2)

/-- A computation and what is done to the state after it, failed or not. -/
def ensuring (step : Step ε σ α) (after : σ → σ) : Step ε σ α := fun state =>
  ((step state).1, after (step state).2)

/-- A computation that is no more than an outcome. -/
def lift (outcome : Except ε α) : Step ε σ α := fun state => (outcome, state)

section Rules

variable {step : Step ε σ α} {rest : α → Step ε σ β} {state after : σ} {answer : α}

theorem seq_of_ok (ran : step state = (.ok answer, after)) :
    (step >>= rest) state = rest answer after := by
  show (match step state with
    | (.ok answer, after) => rest answer after
    | (.error e, after) => (.error e, after)) = _
  rw [ran]

theorem seq_of_error {e : ε} (failed : step state = (.error e, after)) :
    (step >>= rest) state = (.error e, after) := by
  show (match step state with
    | (.ok answer, after) => rest answer after
    | (.error e, after) => (.error e, after)) = _
  rw [failed]

/-- What a computation comes to is all that the one behind it sees. -/
theorem seq_congr {other : σ} (same : step state = step other) :
    (step >>= rest) state = (step >>= rest) other := by
  rcases ran : step state with ⟨e | answer, after⟩
  · rw [seq_of_error ran, seq_of_error (same.symm.trans ran)]
  · rw [seq_of_ok ran, seq_of_ok (same.symm.trans ran)]

/-- A run of two computations that succeeds went through a state between them. -/
theorem seq_eq_ok {last : σ} {final : β} (ran : (step >>= rest) state = (.ok final, last)) :
    ∃ answer between, step state = (.ok answer, between) ∧
      rest answer between = (.ok final, last) := by
  cases first : step state with
  | mk outcome between =>
    cases outcome with
    | ok answer => exact ⟨answer, between, rfl, (seq_of_ok first).symm.trans ran⟩
    | error e =>
      have failed : (step >>= rest) state = (.error e, between) := seq_of_error first
      cases failed.symm.trans ran

/-- A run of two computations that fails failed in the one or the other. -/
theorem seq_eq_error {last : σ} {e : ε} (failed : (step >>= rest) state = (.error e, last)) :
    step state = (.error e, last) ∨
      ∃ answer between, step state = (.ok answer, between) ∧
        rest answer between = (.error e, last) := by
  cases first : step state with
  | mk outcome between =>
    cases outcome with
    | ok answer => exact .inr ⟨answer, between, rfl, (seq_of_ok first).symm.trans failed⟩
    | error e' =>
      have raised : (step >>= rest) state = (.error e', between) := seq_of_error first
      cases raised.symm.trans failed
      exact .inl rfl

/-- What is done with the state read of it. -/
theorem seq_read {rest : σ → Step ε σ β} : (read >>= rest) state = rest state state := rfl

section Branches

variable {condition : Prop} [Decidable condition] {taken other : Step ε σ α}

theorem branch_of (holds : condition) : (if condition then taken else other) state = taken state := by
  rw [if_pos holds]

theorem branch_of_not (fails : ¬condition) :
    (if condition then taken else other) state = other state := by
  rw [if_neg fails]

end Branches

theorem ensuring_eq_ok {change : σ → σ} {last : σ}
    (ran : ensuring step change state = (.ok answer, last)) :
    ∃ between, step state = (.ok answer, between) ∧ last = change between := by
  have outcome := congrArg Prod.fst ran
  have final := congrArg Prod.snd ran
  exact ⟨(step state).2, Prod.ext outcome rfl, final.symm⟩

theorem ensuring_of_ok {change : σ → σ} (ran : step state = (.ok answer, after)) :
    ensuring step change state = (.ok answer, change after) := by
  rw [ensuring, ran]

end Rules

end Steps
