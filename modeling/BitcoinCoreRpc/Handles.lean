/-
This file is records of what was done with handles, as a library.

A handle is acquired, used and released. A record is replayed over the handles that are
held: what is acquired was not held, what is used or released is, so that a record that
replays neither uses a handle after its release nor releases one twice. A record that
leaves what was held as it was is settled, and settled records compose: one after
another, and inside the acquisition and the release of a handle more.
-/

import Mathlib.Data.List.Basic

namespace Handles

/-- One thing done with a handle. -/
inductive Deed (η β : Type)
  | acquire (handle : η)
  | use (handle : η) (what : β)
  | release (handle : η)

variable {η β : Type} [DecidableEq η]

/-- The handles held after a deed: nothing where the deed is out of place. -/
def next (held : List η) : Deed η β → Option (List η)
  | .acquire handle => if handle ∈ held then none else some (handle :: held)
  | .use handle _ => if handle ∈ held then some held else none
  | .release handle => if handle ∈ held then some (held.erase handle) else none

/-- The handles held after a record. -/
def replay : List η → List (Deed η β) → Option (List η)
  | held, [] => some held
  | held, deed :: rest => do replay (← next held deed) rest

variable {held between last : List η} {first second record : List (Deed η β)} {handle : η}

@[simp]
theorem replay_nil : replay held ([] : List (Deed η β)) = some held := rfl

@[simp]
theorem replay_acquire (rest : List (Deed η β)) :
    replay held (.acquire handle :: rest) =
      if handle ∈ held then none else replay (handle :: held) rest := by
  rw [replay, next]
  split_ifs <;> rfl

@[simp]
theorem replay_use (what : β) (rest : List (Deed η β)) :
    replay held (.use handle what :: rest) =
      if handle ∈ held then replay held rest else none := by
  rw [replay, next]
  split_ifs <;> rfl

@[simp]
theorem replay_release (rest : List (Deed η β)) :
    replay held (.release handle :: rest) =
      if handle ∈ held then replay (held.erase handle) rest else none := by
  rw [replay, next]
  split_ifs <;> rfl

theorem replay_append (held : List η) (first second : List (Deed η β)) :
    replay held (first ++ second) = (replay held first).bind fun between => replay between second := by
  induction first generalizing held with
  | nil => rfl
  | cons deed rest inductionHypothesis =>
    rw [List.cons_append, replay, replay]
    cases next held deed with
    | none => rfl
    | some others => exact inductionHypothesis others

/-- A record is replayed through the handles held between its two halves. -/
theorem replay_trans (early : replay held first = some between)
    (late : replay between second = some last) : replay held (first ++ second) = some last := by
  rw [replay_append, early]
  exact late

/-- A record that leaves what is held as it was. -/
def Settled (held : List η) (record : List (Deed η β)) : Prop :=
  replay held record = some held

theorem Settled.append (early : Settled held first) (late : Settled held second) :
    Settled held (first ++ second) :=
  replay_trans early late

/-- A handle released behind a settled record. -/
theorem Settled.released (inner : Settled (handle :: held) record) :
    replay (handle :: held) (record ++ [.release handle]) = some held := by
  rw [replay_append, inner]
  simp

/-- A handle acquired and released around a settled record. -/
theorem Settled.bracket (fresh : handle ∉ held) (inner : Settled (handle :: held) record) :
    Settled held (.acquire handle :: (record ++ [.release handle])) := by
  rw [Settled, replay_acquire, if_neg fresh]
  exact inner.released

/-- Uses of a handle that is held leave what is held as it was. -/
theorem settled_of_uses (inside : handle ∈ held)
    (uses : ∀ deed ∈ record, ∃ what, deed = .use handle what) : Settled held record := by
  induction record with
  | nil => rfl
  | cons deed rest inductionHypothesis =>
    obtain ⟨⟨what, rfl⟩, later⟩ := List.forall_mem_cons.mp uses
    rw [Settled, replay_use, if_pos inside]
    exact inductionHypothesis later

end Handles
