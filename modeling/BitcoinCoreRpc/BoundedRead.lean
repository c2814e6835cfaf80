/-
This file settles what the bounded read does over every body, limit, announcement and
clock: which reads it makes, and what it answers or raises.

The loop records the reads it makes, and what it holds is what they brought. Those a
punctual clock would let it make are due whatever the clock says, and the one thing a
clock decides is whether a reading taken before one of them is past the deadline.
-/

import BitcoinCoreRpc.Transport

namespace BitcoinCoreRpc

/-! ### The reads of the loop -/

/-- The octets some reads brought. -/
def held (reads : List Receipt) : Bytes := reads.flatMap fun receipt => receipt.brought.getD []

@[simp]
theorem held_nil : held [] = [] := rfl

/-- The reads the loop makes. -/
def loopReads (clock : Nat → ℚ) (deadline : ℚ) (fuel remaining : Nat) (reader : Reader) :
    List Receipt :=
  (recordedLoop clock [] deadline fuel remaining [] reader).2

/-- They do not depend on what was read before, or on how a refusal is worded. -/
theorem recordedLoop_reads (clock : Nat → ℚ) (where_ other : Str) (deadline : ℚ)
    (fuel remaining : Nat) (buffer buffer' : Bytes) (reader : Reader) :
    (recordedLoop clock where_ deadline fuel remaining buffer reader).2 =
      (recordedLoop clock other deadline fuel remaining buffer' reader).2 := by
  induction fuel generalizing remaining buffer buffer' reader with
  | zero => rfl
  | succ fuel inductionHypothesis =>
    simp only [recordedLoop]
    split_ifs
    · rfl
    · rfl
    · rcases read1 (min remaining readChunk) reader.arrivals with ⟨e | chunk, rest⟩
      · rfl
      · cases chunk with
        | nil => rfl
        | cons first more => exact congrArg (List.cons _) (inductionHypothesis _ _ _ _)

theorem loopReads_succ (clock : Nat → ℚ) (deadline : ℚ) (fuel remaining : Nat) (reader : Reader) :
    loopReads clock deadline (fuel + 1) remaining reader =
      if remaining = 0 then []
      else if deadline < clock reader.tick then []
      else
        match read1 (min remaining readChunk) reader.arrivals with
        | (.error _, _) => [⟨min remaining readChunk, none⟩]
        | (.ok [], _) => [⟨min remaining readChunk, some []⟩]
        | (.ok chunk, rest) =>
          ⟨min remaining readChunk, some chunk⟩ ::
            loopReads clock deadline fuel (remaining - chunk.length) ⟨rest, reader.tick + 1⟩ := by
  unfold loopReads
  rw [recordedLoop]
  split_ifs
  · rfl
  · rfl
  · rcases read1 (min remaining readChunk) reader.arrivals with ⟨e | chunk, rest⟩
    · rfl
    · cases chunk with
      | nil => rfl
      | cons first more => exact congrArg (List.cons _) (recordedLoop_reads _ _ _ _ _ _ _ _ _)

/-- The reads of the loop under a clock that is never past the deadline. -/
def readsDue (deadline : ℚ) (fuel remaining : Nat) (reader : Reader) : List Receipt :=
  loopReads (fun _ => deadline) deadline fuel remaining reader

/-- A reading taken before one of the reads due is past the deadline. -/
def Late (clock : Nat → ℚ) (deadline : ℚ) (fuel remaining : Nat) (reader : Reader) : Prop :=
  ∃ index < (readsDue deadline fuel remaining reader).length, deadline < clock (reader.tick + index)

/-- The exception that ends some arrivals, if one does. -/
def firstFailure : List Arrival → Option Exc
  | [] => none
  | .failure e :: _ => some e
  | .octets _ _ :: rest => firstFailure rest

theorem firstFailure_of_complete {arrivals : List Arrival} (complete : Complete arrivals) :
    firstFailure arrivals = none := by
  induction arrivals with
  | nil => rfl
  | cons arrival rest inductionHypothesis =>
    cases arrival with
    | octets first more =>
      exact inductionHypothesis fun other member => complete other (List.mem_cons_of_mem _ member)
    | failure e => exact absurd rfl (complete _ List.mem_cons_self e)

/-! ### One round -/

/-- A receive that brings octets leaves the failure that was due. -/
theorem firstFailure_read1 {size : Nat} {arrivals rest : List Arrival} {chunk : Bytes}
    (received : read1 size arrivals = (.ok chunk, rest)) :
    firstFailure rest = firstFailure arrivals := by
  match arrivals with
  | [] =>
    cases received
    rfl
  | .failure e' :: rest' => cases received
  | .octets first more :: rest' =>
    simp only [read1] at received
    split at received
    all_goals
      cases received
      rfl

section Round

variable {clock : Nat → ℚ} {deadline : ℚ} {fuel remaining : Nat} {reader : Reader}

/-- What a round of the loop meets: nothing left to ask for, a reading past the deadline, a receive
that raises, the end of the body, or octets of it. -/
theorem round_cases (clock : Nat → ℚ) (deadline : ℚ) (remaining : Nat) (reader : Reader) :
    remaining = 0 ∨ remaining ≠ 0 ∧ (deadline < clock reader.tick ∨ ¬ deadline < clock reader.tick ∧
      ((∃ e rest, read1 (min remaining readChunk) reader.arrivals = (.error e, rest) ∧
          reader.arrivals = .failure e :: rest) ∨
        (read1 (min remaining readChunk) reader.arrivals = (.ok [], []) ∧ reader.arrivals = []) ∨
        ∃ first more rest,
          read1 (min remaining readChunk) reader.arrivals = (.ok (first :: more), rest) ∧
          (first :: more).length ≤ remaining ∧ contents reader.arrivals = first :: more ++ contents rest ∧
          firstFailure rest = firstFailure reader.arrivals)) := by
  rcases eq_or_ne remaining 0 with none_left | some_left
  · exact .inl none_left
  refine .inr ⟨some_left, ?_⟩
  by_cases late : deadline < clock reader.tick
  · exact .inl late
  refine .inr ⟨late, ?_⟩
  have asked : 0 < min remaining readChunk :=
    Nat.lt_min.mpr ⟨Nat.pos_of_ne_zero some_left, by decide⟩
  rcases received : read1 (min remaining readChunk) reader.arrivals with ⟨e | chunk, rest⟩
  · exact .inl ⟨e, rest, rfl, read1_eq_error received⟩
  cases chunk with
  | nil =>
    obtain ⟨nothing, rfl⟩ := read1_eq_end asked received
    exact .inr (.inl ⟨rfl, nothing⟩)
  | cons first more =>
    obtain ⟨front, size, _⟩ := read1_eq_octets received
    exact .inr (.inr ⟨first, more, rest, rfl, size.trans (Nat.min_le_left _ _), front,
      firstFailure_read1 received⟩)

/-- A late loop over rounds that go on is late at once or after the first of them. -/
theorem late_of_received {first : Nat} {more : Bytes} {rest : List Arrival} (some_left : remaining ≠ 0)
    (received : read1 (min remaining readChunk) reader.arrivals = (.ok (first :: more), rest)) :
    Late clock deadline (fuel + 1) remaining reader ↔
      deadline < clock reader.tick ∨
        Late clock deadline fuel (remaining - (first :: more).length) ⟨rest, reader.tick + 1⟩ := by
  simp only [Late, readsDue, loopReads_succ, if_neg some_left, lt_irrefl, if_false, received,
    List.length_cons]
  constructor
  · rintro ⟨index, within, late⟩
    cases index with
    | zero => exact .inl late
    | succ index =>
      exact .inr ⟨index, Nat.lt_of_succ_lt_succ within, by rwa [Nat.add_right_comm]⟩
  · rintro (late | ⟨index, within, late⟩)
    · exact ⟨0, Nat.succ_pos _, late⟩
    · exact ⟨index + 1, Nat.succ_lt_succ within, by rwa [Nat.add_right_comm] at late⟩

/-- A loop whose first round is its last is late only there. -/
theorem late_of_single (single : (readsDue deadline fuel remaining reader).length = 1) :
    Late clock deadline fuel remaining reader ↔ deadline < clock reader.tick := by
  unfold Late
  rw [single]
  exact ⟨fun ⟨index, within, late⟩ => by rwa [Nat.lt_one_iff.mp within] at late,
    fun late => ⟨0, Nat.one_pos, late⟩⟩

/-- A loop with anything to ask for makes a read. -/
theorem readsDue_pos (some_left : remaining ≠ 0) :
    0 < (readsDue deadline (fuel + 1) remaining reader).length := by
  simp only [readsDue, loopReads_succ, if_neg some_left, lt_irrefl, if_false]
  split <;> exact Nat.succ_pos _

end Round

/-! ### The loop -/

section Loop

variable {clock : Nat → ℚ} {deadline : ℚ} {where_ : Str} {fuel remaining : Nat} {reader : Reader}

/-- A loop some reading of which is late raises that it is still arriving. -/
theorem readLoop_late {buffer : Bytes} (late : Late clock deadline fuel remaining reader) :
    (readLoop clock where_ deadline fuel remaining buffer reader).1 = .error (stillArriving where_) := by
  induction fuel generalizing remaining buffer reader with
  | zero =>
    obtain ⟨_, within, _⟩ := late
    cases within
  | succ fuel inductionHypothesis =>
    simp only [readLoop_succ]
    rcases round_cases clock deadline remaining reader with none_left | ⟨some_left, first_late | ⟨inTime,
      ⟨e, rest, received, _⟩ | ⟨received, _⟩ | ⟨first, more, rest, received, _⟩⟩⟩
    · obtain ⟨_, within, _⟩ := late
      simp [readsDue, loopReads_succ, none_left] at within
    · rw [if_neg some_left, if_pos first_late]
    all_goals simp only [if_neg some_left, if_neg inTime, received]
    · exact absurd ((late_of_single (by simp only [readsDue, loopReads_succ, if_neg some_left, lt_irrefl,
        if_false, received, List.length_singleton])).mp late) inTime
    · exact absurd ((late_of_single (by simp only [readsDue, loopReads_succ, if_neg some_left, lt_irrefl,
        if_false, received, List.length_singleton])).mp late) inTime
    · rcases (late_of_received some_left received).mp late with now | later
      · exact absurd now inTime
      · exact inductionHypothesis later

/-- A loop no reading of which is late raises what ends the body, where that comes before as much
as the loop was to ask for. -/
theorem readLoop_failure {buffer : Bytes} {e : Exc} (enough : remaining ≤ fuel)
    (inTime : ¬ Late clock deadline fuel remaining reader)
    (fails : firstFailure reader.arrivals = some e)
    (short : (contents reader.arrivals).length < remaining) :
    (readLoop clock where_ deadline fuel remaining buffer reader).1 = .error e := by
  induction fuel generalizing remaining buffer reader with
  | zero => exact absurd (short.trans_le enough) (Nat.not_lt_zero _)
  | succ fuel inductionHypothesis =>
    simp only [readLoop_succ]
    rcases round_cases clock deadline remaining reader with none_left | ⟨some_left, late | ⟨notLate,
      ⟨e', rest, received, here⟩ | ⟨received, here⟩ | ⟨first, more, rest, received, fits, front, same⟩⟩⟩
    · exact absurd (none_left ▸ short) (Nat.not_lt_zero _)
    · exact absurd ⟨0, readsDue_pos some_left, late⟩ inTime
    all_goals simp only [if_neg some_left, if_neg notLate, received]
    · rw [here] at fails
      exact congrArg _ (Option.some.inj fails)
    · rw [here] at fails
      cases fails
    · rw [front, List.length_append] at short
      exact inductionHypothesis (by simp only [List.length_cons]; omega)
        (fun later => inTime ((late_of_received some_left received).mpr (.inr later)))
        (same.trans fails) (Nat.lt_sub_of_add_lt (Nat.add_comm _ _ ▸ short))

/-- A loop no reading of which is late answers, where as much as it was to ask for comes before
what ends the body. -/
theorem readLoop_inTime {buffer : Bytes} (inTime : ¬ Late clock deadline fuel remaining reader)
    (reaches : ∀ e, firstFailure reader.arrivals = some e →
      remaining ≤ (contents reader.arrivals).length) :
    ∃ answer read, readLoop clock where_ deadline fuel remaining buffer reader = (.ok answer, read) := by
  induction fuel generalizing remaining buffer reader with
  | zero => exact ⟨_, _, rfl⟩
  | succ fuel inductionHypothesis =>
    simp only [readLoop_succ]
    rcases round_cases clock deadline remaining reader with none_left | ⟨some_left, late | ⟨notLate,
      ⟨e, rest, received, here⟩ | ⟨received, _⟩ | ⟨first, more, rest, received, _, front, same⟩⟩⟩
    · rw [if_pos none_left]
      exact ⟨_, _, rfl⟩
    · exact absurd ⟨0, readsDue_pos some_left, late⟩ inTime
    all_goals simp only [if_neg some_left, if_neg notLate, received]
    · refine absurd (Nat.le_zero.mp ((reaches e ?_).trans_eq ?_)) some_left <;> rw [here] <;> rfl
    · exact ⟨_, _, rfl⟩
    · refine inductionHypothesis
        (fun later => inTime ((late_of_received some_left received).mpr (.inr later)))
        fun e fails => Nat.sub_le_of_le_add ?_
      have long := reaches e (same.symm.trans fails)
      rwa [front, List.length_append, Nat.add_comm] at long

end Loop

/-! ### The bounded read -/

section Bounded

variable {py : Interpreter} {clock : Nat → ℚ} {contentLength : Option Str} {limit : Nat}
  {where_ : Str} {deadline : ℚ} {reader : Reader}

/-- A bounded read that truncates is late where a reading before a read is. -/
theorem readBounded_truncate_late (late : Late clock deadline (limit + 1) (limit + 1) reader) :
    (readBounded py clock contentLength limit where_ deadline true reader).1 =
      .error (stillArriving where_) := by
  have raised := @readLoop_late clock deadline where_ _ _ _ [] late
  simp only [readBounded_eq, assertValidMaxBodySize_ofNat, if_true, Int.toNat_natCast]
  split
  · rename_i ran
    rw [ran] at raised
    exact raised
  · rename_i ran
    rw [ran] at raised
    cases raised

/-- A bounded read that truncates raises what ends the body within its limit. -/
theorem readBounded_truncate_failure {e : Exc}
    (inTime : ¬ Late clock deadline (limit + 1) (limit + 1) reader)
    (fails : firstFailure reader.arrivals = some e) (short : (contents reader.arrivals).length ≤ limit) :
    (readBounded py clock contentLength limit where_ deadline true reader).1 = .error e := by
  have raised := @readLoop_failure clock deadline where_ _ _ _ [] e le_rfl inTime fails
    (Nat.lt_succ_of_le short)
  simp only [readBounded_eq, assertValidMaxBodySize_ofNat, if_true, Int.toNat_natCast]
  split
  · rename_i ran
    rw [ran] at raised
    exact raised
  · rename_i ran
    rw [ran] at raised
    cases raised

/-- A bounded read that refuses what is over its limit raises a plain refusal where a number over it
is announced, where a reading before a read is late and where the body is over it. -/
theorem readBounded_refuse_error (complete : Complete reader.arrivals)
    (bad : ¬ ((contents reader.arrivals).length ≤ limit ∧
      announcedOver py contentLength limit = none ∧
      ¬ Late clock deadline (limit + 1) (limit + 1) reader)) :
    ∃ message, (readBounded py clock contentLength limit where_ deadline false reader).1 =
      .error (.fetchError message) := by
  simp only [readBounded_eq, assertValidMaxBodySize_ofNat, Bool.false_eq_true, if_false,
    Int.toNat_natCast]
  cases announced : announcedOver py contentLength limit with
  | some size => exact ⟨_, rfl⟩
  | none =>
    by_cases late : Late clock deadline (limit + 1) (limit + 1) reader
    · have raised := @readLoop_late clock deadline where_ _ _ _ [] late
      rcases ran : readLoop clock where_ deadline (limit + 1) (limit + 1) [] reader with ⟨answer, read⟩
      rw [ran] at raised
      obtain rfl : answer = .error (stillArriving where_) := raised
      exact ⟨_, rfl⟩
    · obtain ⟨buffer, read, ran⟩ := @readLoop_inTime clock deadline where_ _ _ _ [] late
        fun e fails => by rw [firstFailure_of_complete complete] at fails; cases fails
      obtain ⟨same, _⟩ := readLoop_ok le_rfl ran
      rw [List.nil_append] at same
      have long : limit < (contents reader.arrivals).length :=
        not_le.mp fun fits => bad ⟨fits, announced, late⟩
      simp only [ran]
      rw [if_pos (by rw [same, List.length_take]; omega)]
      exact ⟨_, rfl⟩

/-- A bounded read that refuses what is over its limit answers the whole of any other body. -/
theorem readBounded_refuse_ok (complete : Complete reader.arrivals)
    (fits : (contents reader.arrivals).length ≤ limit)
    (quiet : announcedOver py contentLength limit = none)
    (inTime : ¬ Late clock deadline (limit + 1) (limit + 1) reader) :
    (readBounded py clock contentLength limit where_ deadline false reader).1 =
      .ok (contents reader.arrivals) := by
  obtain ⟨buffer, read, ran⟩ := @readLoop_inTime clock deadline where_ _ _ _ [] inTime
    fun e fails => by rw [firstFailure_of_complete complete] at fails; cases fails
  obtain ⟨same, _⟩ := readLoop_ok le_rfl ran
  rw [List.nil_append, List.take_of_length_le (Nat.le_succ_of_le fits)] at same
  simp only [readBounded_eq, assertValidMaxBodySize_ofNat, Bool.false_eq_true, if_false,
    Int.toNat_natCast, quiet, ran]
  rw [same, if_neg (not_lt.mpr (Int.ofNat_le.mpr fits))]

end Bounded

section Long

variable {py : Interpreter} {digits : Str}

end Long

end BitcoinCoreRpc
