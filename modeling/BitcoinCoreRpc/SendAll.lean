/-
This file models how a request is written: one send after another, each given what is left
of the deadline and offered a chunk at most.

A buffer is a contiguous run of items of one size, and a view of it is sliced by items.
The socket is an oracle: each send of a piece that is not empty takes an octet of it at
least, or raises. The reading of the clock before each send, what the send was given and
what it answered are recorded beside the loop.

The main result says that a write each of whose readings is before the deadline and none of
whose sends raises hands the socket the octets of the buffer, and that one that raises has
left some of them.
-/

import BitcoinCoreRpc.Transport

namespace BitcoinCoreRpc

/-- `_SEND_CHUNK` -/
def sendChunk : Nat := 64 * 1024

/-- `_seconds_left`, at one reading of the clock. -/
def secondsLeft (deadline reading : ℚ) : Except Exc ℚ :=
  if deadline - reading ≤ 0 then .error (.osError (str "timed out")) else .ok (deadline - reading)

/-! ### Views of a buffer -/

/-- A `memoryview` of a contiguous buffer, whose items are an octet or wider. -/
structure MemoryView where
  itemSize : Nat
  items : List Bytes
  positive : 0 < itemSize
  sized : ∀ item ∈ items, item.length = itemSize

/-- The octets the buffer holds. -/
def MemoryView.octets (view : MemoryView) : Bytes := view.items.flatten

/-- `view.nbytes` -/
def MemoryView.nbytes (view : MemoryView) : Nat := view.itemSize * view.items.length

theorem MemoryView.singletons_sized (octets : Bytes) :
    ∀ item ∈ octets.map fun octet => [octet], item.length = 1 := by
  simp

/-- `view.cast("B")` -/
def MemoryView.cast (view : MemoryView) : MemoryView where
  itemSize := 1
  items := view.octets.map fun octet => [octet]
  positive := Nat.one_pos
  sized := singletons_sized view.octets

theorem MemoryView.take_sized (view : MemoryView) (stop : Nat) :
    ∀ item ∈ view.items.take stop, item.length = view.itemSize :=
  fun item member => view.sized item (List.mem_of_mem_take member)

/-- `view[:stop]` -/
def MemoryView.upTo (view : MemoryView) (stop : Nat) : MemoryView where
  itemSize := view.itemSize
  items := view.items.take stop
  positive := view.positive
  sized := view.take_sized stop

theorem MemoryView.drop_sized (view : MemoryView) (start : Nat) :
    ∀ item ∈ view.items.drop start, item.length = view.itemSize :=
  fun item member => view.sized item (List.mem_of_mem_drop member)

/-- `view[start:]` -/
def MemoryView.since (view : MemoryView) (start : Nat) : MemoryView where
  itemSize := view.itemSize
  items := view.items.drop start
  positive := view.positive
  sized := view.drop_sized start

@[simp]
theorem MemoryView.items_upTo (view : MemoryView) (stop : Nat) :
    (view.upTo stop).items = view.items.take stop := rfl

@[simp]
theorem MemoryView.items_since (view : MemoryView) (start : Nat) :
    (view.since start).items = view.items.drop start := rfl

/-- The items of a view are its octets, one each. -/
def MemoryView.Octetwise (view : MemoryView) : Prop :=
  view.items = view.octets.map fun octet => [octet]

theorem flatten_singletons (octets : Bytes) : (octets.map fun octet => [octet]).flatten = octets := by
  induction octets with
  | nil => rfl
  | cons octet rest inductionHypothesis =>
    rw [List.map_cons, List.flatten_cons, inductionHypothesis, List.singleton_append]

section Octetwise

variable {view : MemoryView}

@[simp]
theorem MemoryView.octets_cast (view : MemoryView) : view.cast.octets = view.octets :=
  flatten_singletons view.octets

theorem MemoryView.octetwise_cast (view : MemoryView) : view.cast.Octetwise := by
  rw [Octetwise, octets_cast, cast]

/-- A view with as many items as octets needs no cast. -/
theorem MemoryView.octetwise_of_nbytes (same : view.nbytes = view.items.length) :
    view.Octetwise := by
  have single : ∀ item ∈ view.items, item.length = 1 := by
    intro item member
    rw [view.sized item member]
    exact Nat.eq_of_mul_eq_mul_right (List.length_pos_of_mem member)
      (same.trans (Nat.one_mul _).symm)
  unfold Octetwise octets
  generalize view.items = items at single
  induction items with
  | nil => rfl
  | cons item rest inductionHypothesis =>
    obtain ⟨octet, rfl⟩ := List.length_eq_one_iff.mp (single item List.mem_cons_self)
    rw [List.flatten_cons, List.singleton_append, List.map_cons,
      ← inductionHypothesis fun other member => single other (List.mem_cons_of_mem _ member)]

theorem MemoryView.octets_upTo (octetwise : view.Octetwise) (stop : Nat) :
    (view.upTo stop).octets = view.octets.take stop := by
  rw [octets, items_upTo, octetwise, ← List.map_take, flatten_singletons]

theorem MemoryView.octets_since (octetwise : view.Octetwise) (start : Nat) :
    (view.since start).octets = view.octets.drop start := by
  rw [octets, items_since, octetwise, ← List.map_drop, flatten_singletons]

theorem MemoryView.octetwise_since (octetwise : view.Octetwise) (start : Nat) :
    (view.since start).Octetwise := by
  rw [Octetwise, octets_since octetwise, List.map_drop, ← octetwise, items_since]

theorem MemoryView.items_eq_nil (octetwise : view.Octetwise) :
    view.items = [] ↔ view.octets = [] := by
  rw [octetwise, List.map_eq_nil_iff]

end Octetwise

/-! ### The loop -/

/-- The socket beneath: what the send of an index answers, offered a piece. -/
structure Socket where
  send : Nat → Bytes → Except Exc Nat
  takes : ∀ index piece count, piece ≠ [] → send index piece = .ok count →
    0 < count ∧ count ≤ piece.length

/-- One send: the timeout set before it, the piece it was offered, and what it answered. -/
structure Sending where
  timeout : ℚ
  offered : Bytes
  answer : Except Exc Nat

/-- The octets one send took. -/
def Sending.taken (sending : Sending) : Bytes :=
  match sending.answer with
  | .ok count => sending.offered.take count
  | .error _ => []

/-- What a write did: the readings of the clock, the sends, and what it answered, `none` where the
rounds ran out. -/
structure SendLog where
  readings : List ℚ
  sendings : List Sending
  outcome : Option (Except Exc Unit)

/-- The octets the socket was handed. -/
def SendLog.taken (log : SendLog) : Bytes := log.sendings.flatMap Sending.taken

/-- The rounds after a first one that went on. -/
def SendLog.after (reading : ℚ) (sending : Sending) (log : SendLog) : SendLog :=
  ⟨reading :: log.readings, sending :: log.sendings, log.outcome⟩

@[simp]
theorem Sending.taken_ok (timeout : ℚ) (offered : Bytes) (count : Nat) :
    Sending.taken ⟨timeout, offered, .ok count⟩ = offered.take count := rfl

@[simp]
theorem SendLog.taken_after (reading : ℚ) (sending : Sending) (log : SendLog) :
    (log.after reading sending).taken = sending.taken ++ log.taken := rfl

/-- The loop of `_DeadlineSocket.sendall`. -/
def sendLoop (socket : Socket) (clock : Nat → ℚ) (deadline : ℚ) : (rounds index : Nat) →
    MemoryView → SendLog
  | 0, _, _ => ⟨[], [], none⟩
  | rounds + 1, index, view =>
    if view.items = [] then ⟨[], [], some (.ok ())⟩
    else
      match secondsLeft deadline (clock index) with
      | .error e => ⟨[clock index], [], some (.error e)⟩
      | .ok seconds =>
        let piece := (view.upTo sendChunk).octets
        match socket.send index piece with
        | .error e => ⟨[clock index], [⟨seconds, piece, .error e⟩], some (.error e)⟩
        | .ok count =>
          (sendLoop socket clock deadline rounds (index + 1) (view.since count)).after (clock index)
            ⟨seconds, piece, .ok count⟩

/-- `_DeadlineSocket.sendall`. A round that goes on takes an octet, so the octets bound the rounds. -/
def sendall (socket : Socket) (clock : Nat → ℚ) (deadline : ℚ) (data : MemoryView) : SendLog :=
  let view := if data.nbytes ≠ data.items.length then data.cast else data
  sendLoop socket clock deadline (data.nbytes + 1) 0 view

/-! ### What a write does -/

section Writes

variable {socket : Socket} {clock : Nat → ℚ} {deadline : ℚ}

/-- What a write of some octets does from one round on. -/
inductive Writes (socket : Socket) (clock : Nat → ℚ) (deadline : ℚ) : Nat → Bytes → SendLog → Prop
  | done (index : Nat) : Writes socket clock deadline index [] ⟨[], [], some (.ok ())⟩
  | late {index : Nat} {octets : Bytes} (some_left : octets ≠ [])
      (past : deadline ≤ clock index) :
      Writes socket clock deadline index octets
        ⟨[clock index], [], some (.error (.osError (str "timed out")))⟩
  | raised {index : Nat} {octets : Bytes} {e : Exc} (some_left : octets ≠ [])
      (inTime : clock index < deadline) :
      Writes socket clock deadline index octets ⟨[clock index],
        [⟨deadline - clock index, octets.take sendChunk, .error e⟩], some (.error e)⟩
  | took {index count : Nat} {octets : Bytes} {log : SendLog} (inTime : clock index < deadline)
      (some_taken : 0 < count) (offered : count ≤ (octets.take sendChunk).length)
      (later : Writes socket clock deadline (index + 1) (octets.drop count) log) :
      Writes socket clock deadline index octets
        (log.after (clock index) ⟨deadline - clock index, octets.take sendChunk, .ok count⟩)

theorem secondsLeft_of_le {deadline reading : ℚ} (past : deadline ≤ reading) :
    secondsLeft deadline reading = .error (.osError (str "timed out")) :=
  if_pos (sub_nonpos.mpr past)

theorem secondsLeft_of_lt {deadline reading : ℚ} (inTime : reading < deadline) :
    secondsLeft deadline reading = .ok (deadline - reading) :=
  if_neg (not_le.mpr (sub_pos.mpr inTime))

/-- The loop, given a round more than there are octets. -/
theorem sendLoop_writes {rounds index : Nat} {view : MemoryView} (octetwise : view.Octetwise)
    (enough : view.octets.length < rounds) :
    Writes socket clock deadline index view.octets
      (sendLoop socket clock deadline rounds index view) := by
  induction rounds generalizing index view with
  | zero => cases enough
  | succ rounds inductionHypothesis =>
    rw [sendLoop]
    by_cases none_left : view.octets = []
    · rw [if_pos ((MemoryView.items_eq_nil octetwise).mpr none_left), none_left]
      exact .done index
    rw [if_neg (mt (MemoryView.items_eq_nil octetwise).mp none_left)]
    rcases le_or_gt deadline (clock index) with past | inTime
    · rw [secondsLeft_of_le past]
      exact .late none_left past
    rw [secondsLeft_of_lt inTime]
    simp only [MemoryView.octets_upTo octetwise]
    rcases answered : socket.send index (view.octets.take sendChunk) with e | count
    · exact .raised none_left inTime
    have some_offered : view.octets.take sendChunk ≠ [] := by
      rw [Ne, List.take_eq_nil_iff, not_or]
      exact ⟨by decide, none_left⟩
    obtain ⟨some_taken, offered⟩ := socket.takes _ _ _ some_offered answered
    refine .took inTime some_taken offered ?_
    rw [← MemoryView.octets_since octetwise]
    refine inductionHypothesis (MemoryView.octetwise_since octetwise count) ?_
    have left : view.octets.length ≠ 0 := mt List.eq_nil_of_length_eq_zero none_left
    rw [MemoryView.octets_since octetwise, List.length_drop]
    omega

theorem sendall_writes (socket : Socket) (clock : Nat → ℚ) (deadline : ℚ) (data : MemoryView) :
    Writes socket clock deadline 0 data.octets (sendall socket clock deadline data) := by
  have size : data.octets.length = data.nbytes := by
    rw [MemoryView.octets, List.length_flatten, MemoryView.nbytes,
      List.map_congr_left data.sized, List.map_const', List.sum_replicate, smul_eq_mul, Nat.mul_comm]
  unfold sendall
  split_ifs with wider
  · rw [← data.octets_cast]
    exact sendLoop_writes data.octetwise_cast (by rw [data.octets_cast, size]; exact Nat.lt_succ_self _)
  · exact sendLoop_writes (MemoryView.octetwise_of_nbytes (not_not.mp wider))
      (size ▸ Nat.lt_succ_self _)

variable {index : Nat} {octets : Bytes} {log : SendLog}

/-- A write comes to an end. -/
theorem Writes.ended (writes : Writes socket clock deadline index octets log) :
    ∃ outcome, log.outcome = some outcome := by
  induction writes with
  | done | late | raised => exact ⟨_, rfl⟩
  | took _ _ _ _ inductionHypothesis => exact inductionHypothesis

/-- No piece is larger than a chunk. -/
theorem Writes.offered_le (writes : Writes socket clock deadline index octets log) :
    ∀ sending ∈ log.sendings, sending.offered.length ≤ sendChunk := by
  induction writes with
  | done | late => simp
  | raised => simp
  | took _ _ _ _ inductionHypothesis =>
    exact List.forall_mem_cons.mpr ⟨List.length_take_le _ _, inductionHypothesis⟩

/-- What was taken and what is left are the octets, with nothing left exactly where the write
returned. -/
theorem Writes.accounts (writes : Writes socket clock deadline index octets log) :
    ∃ left, octets = log.taken ++ left ∧ (left = [] ↔ log.outcome = some (.ok ())) := by
  induction writes with
  | done => exact ⟨[], rfl, by simp⟩
  | late some_left | raised some_left => exact ⟨_, rfl, by simpa using some_left⟩
  | @took _ count octets log _ _ offered _ inductionHypothesis =>
    obtain ⟨left, same, returned⟩ := inductionHypothesis
    refine ⟨left, ?_, returned⟩
    have within : count ≤ sendChunk := offered.trans (List.length_take_le _ _)
    rw [SendLog.taken_after, Sending.taken_ok, List.append_assoc, ← same, List.take_take,
      min_eq_left within, List.take_append_drop]

/-- A write that raises met a reading at the deadline or past it, or a send that raised. -/
theorem Writes.raised_by (writes : Writes socket clock deadline index octets log) {e : Exc}
    (raised : log.outcome = some (.error e)) :
    (∃ reading ∈ log.readings, deadline ≤ reading) ∨
      ∃ sending ∈ log.sendings, sending.answer = .error e := by
  induction writes with
  | done => cases raised
  | late _ past => exact .inl ⟨_, List.mem_singleton_self _, past⟩
  | raised => exact .inr ⟨_, List.mem_singleton_self _, by cases raised; rfl⟩
  | took _ _ _ _ inductionHypothesis =>
    rcases inductionHypothesis raised with ⟨reading, member, past⟩ | ⟨sending, member, failed⟩
    · exact .inl ⟨reading, List.mem_cons_of_mem _ member, past⟩
    · exact .inr ⟨sending, List.mem_cons_of_mem _ member, failed⟩

/-- Each send is given what the reading before it leaves of the deadline. -/
theorem Writes.timeout_eq (writes : Writes socket clock deadline index octets log) {position : Nat}
    {sending : Sending} (made : log.sendings[position]? = some sending) :
    clock (index + position) < deadline ∧ sending.timeout = deadline - clock (index + position) := by
  induction writes generalizing position with
  | done | late => simp at made
  | raised _ inTime =>
    cases position with
    | zero =>
      obtain rfl := Option.some.inj made
      exact ⟨inTime, rfl⟩
    | succ position => simp at made
  | took inTime _ _ _ inductionHypothesis =>
    cases position with
    | zero =>
      obtain rfl := Option.some.inj made
      exact ⟨inTime, rfl⟩
    | succ position =>
      rw [← Nat.add_assoc, Nat.add_right_comm]
      exact inductionHypothesis made

end Writes

/-- A write ends, whatever the clock reads and the socket takes. No piece is larger than a chunk;
where each reading is before the deadline and no send raises, the socket is handed the octets of
the buffer; where the write raises, some of them were not taken; and each send is given a timeout,
what the reading before it leaves of the deadline at most. -/
theorem sendall_exact (socket : Socket) (clock : Nat → ℚ) (deadline : ℚ) (data : MemoryView) :
    let log := sendall socket clock deadline data
    (∃ outcome, log.outcome = some outcome) ∧
    (∀ sending ∈ log.sendings, sending.offered.length ≤ sendChunk) ∧
    ((∀ reading ∈ log.readings, reading < deadline) →
      (∀ sending ∈ log.sendings, sending.answer.isOk) →
      log.outcome = some (.ok ()) ∧ log.taken = data.octets) ∧
    (∀ e, log.outcome = some (.error e) → log.taken <+: data.octets ∧ log.taken ≠ data.octets) ∧
    ∀ index sending, log.sendings[index]? = some sending →
      0 < sending.timeout ∧ sending.timeout ≤ deadline - clock index := by
  intro log
  have writes := sendall_writes socket clock deadline data
  obtain ⟨left, same, returned⟩ := writes.accounts
  refine ⟨writes.ended, writes.offered_le, fun inTime unraised => ?_, fun e raised => ?_,
    fun index sending made => ?_⟩
  · obtain ⟨outcome, ended⟩ := writes.ended
    have ok : log.outcome = some (.ok ()) := by
      rcases outcome with e | ⟨⟩
      · rcases writes.raised_by ended with ⟨reading, member, past⟩ | ⟨sending, member, failed⟩
        · exact absurd (inTime reading member) (not_lt.mpr past)
        · have answered := unraised sending member
          rw [failed] at answered
          cases answered
      · exact ended
    rw [returned.mpr ok, List.append_nil] at same
    exact ⟨ok, same.symm⟩
  · refine ⟨⟨left, same.symm⟩, fun whole => ?_⟩
    have nothing : left = [] := List.self_eq_append_right.mp (whole.trans same)
    rw [returned.mp nothing] at raised
    cases raised
  · obtain ⟨inTime, given⟩ := writes.timeout_eq made
    rw [Nat.zero_add] at inTime given
    exact ⟨given ▸ sub_pos.mpr inTime, given.le⟩

theorem takesThree_takes (piece : Bytes) (count : Nat) (some_offered : piece ≠ [])
    (answered : (.ok (min 3 piece.length) : Except Exc Nat) = .ok count) :
    0 < count ∧ count ≤ piece.length := by
  obtain rfl := Except.ok.inj answered
  have positive := List.length_pos_of_ne_nil some_offered
  omega

/-- A socket each send of which takes three octets of its piece at most. -/
def takesThree : Socket where
  send := fun _ piece => .ok (min 3 piece.length)
  takes := fun _ => takesThree_takes

theorem words_sized : ∀ item ∈ [[0x7B, 0x22, 0x61, 0x22], [0x3A, 0x31, 0x32, 0x7D]],
    item.length = 4 := by
  decide

/-- Two items of four octets. -/
def twoWords : MemoryView :=
  ⟨4, [[0x7B, 0x22, 0x61, 0x22], [0x3A, 0x31, 0x32, 0x7D]], by decide, words_sized⟩

/-- The octets are taken three at a time, across the items, while the clock moves on. -/
theorem sendall_exact_words :
    (sendall takesThree (fun reading => reading / 8) 1 twoWords).sendings.map Sending.offered =
        [twoWords.octets, twoWords.octets.drop 3, twoWords.octets.drop 6] ∧
      (sendall takesThree (fun reading => reading / 8) 1 twoWords).outcome = some (.ok ()) ∧
      (sendall takesThree (fun reading => reading / 8) 1 twoWords).taken = twoWords.octets :=
  ⟨by decide +kernel, (sendall_exact takesThree (fun reading => reading / 8) 1 twoWords).2.2.1
    (by decide +kernel) (by decide +kernel)⟩

/-- A reading at the deadline is not past it, and no octet is sent after it. -/
theorem sendall_at_deadline :
    ¬ ∀ (socket : Socket) (clock : Nat → ℚ) (deadline : ℚ) (data : MemoryView),
      let log := sendall socket clock deadline data
      (∀ reading ∈ log.readings, ¬ deadline < reading) →
        (∀ sending ∈ log.sendings, sending.answer.isOk) →
        log.outcome = some (.ok ()) ∧ log.taken = data.octets := by
  intro claimed
  have log := claimed takesThree (fun _ => 1) 1 twoWords (by decide +kernel) (by decide +kernel)
  exact absurd log.2 (by decide +kernel)

end BitcoinCoreRpc
