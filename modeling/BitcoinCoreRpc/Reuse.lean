/-
This file says what keeping connections changes of what a caller sees: nothing.

Whatever calls and closes came before, a call comes to an answer that is told of its
response alone, as over a connection of its own, whether the connection it went over was
kept, was found closed before the write or was found closed by the write. What it did is
one of four short histories, each of which opens one connection at most and writes the
request in full once. Over a run of calls that lose no connection, one is opened for each
address, and one more after each close.
-/

import BitcoinCoreRpc.BrokenBody
import BitcoinCoreRpc.Endpoint

namespace BitcoinCoreRpc

/-! ### A response, read by itself -/

/-- What a call answers of a response that is read in time: its status and its body, held to the limit
of an answer, or its status and the front of its body where it is a failure. -/
def heldTo (py : Interpreter) (where_ : Str) (maxBodySize : Int) (response : Response) :
    Except Exc (Nat × Bytes) :=
  (readBounded py (fun _ => 0) response.contentLength
    (if clientError ≤ response.status then (maxErrorBodySize : Int) else maxBodySize) where_ 0
    (decide (clientError ≤ response.status)) ⟨response.arrivals, 0⟩).1.map (response.status, ·)

section Untimed

variable {clock : Nat → ℚ} {where_ : Str} {deadline : ℚ}

/-- A loop that is never late comes to what arrives. -/
theorem readLoop_untimed {fuel remaining : Nat} {buffer : Bytes} {reader : Reader}
    (inTime : ∀ tick ∈ Set.Ico reader.tick
      (readLoop clock where_ deadline fuel remaining buffer reader).2.tick, clock tick ≤ deadline)
    (tick : Nat) :
    (readLoop clock where_ deadline fuel remaining buffer reader).1 =
      (readLoop (fun _ => 0) where_ 0 fuel remaining buffer ⟨reader.arrivals, tick⟩).1 := by
  induction fuel generalizing remaining buffer reader tick with
  | zero => rfl
  | succ fuel inductionHypothesis =>
    simp only [readLoop_succ, lt_irrefl, if_false] at inTime ⊢
    by_cases none_left : remaining = 0
    · simp only [if_pos none_left]
    simp only [if_neg none_left] at inTime ⊢
    by_cases late : deadline < clock reader.tick
    · simp only [if_pos late] at inTime
      exact absurd late (not_lt.mpr (inTime _ ⟨le_rfl, Nat.lt_succ_self _⟩))
    simp only [if_neg late] at inTime ⊢
    generalize read1 (min remaining readChunk) reader.arrivals = received at inTime ⊢
    obtain ⟨e | chunk, rest⟩ := received
    · rfl
    · cases chunk with
      | nil => rfl
      | cons first more =>
        exact inductionHypothesis (fun tick within =>
          inTime tick ⟨(Nat.le_succ _).trans within.1, within.2⟩) _

/-- What a bounded read makes of what its loop read. -/
def judged (where_ : Str) (maxBodySize : Int) (truncate : Bool) :
    Except Exc Bytes → Except Exc Bytes
  | .error e => .error e
  | .ok buffer =>
    if maxBodySize < buffer.length then
      if truncate then .ok (buffer.take maxBodySize.toNat)
      else .error (.fetchError (where_ ++
        str ": response larger than the max_body_size of " ++ intText maxBodySize))
    else .ok buffer

/-- A bounded read is refused whatever arrives, or is its loop's. -/
theorem readBounded_judged (py : Interpreter) (contentLength : Option Str) (maxBodySize : Int)
    (where_ : Str) (truncate : Bool) :
    (∃ e, ∀ clock deadline reader, readBounded py clock contentLength maxBodySize where_ deadline
      truncate reader = (.error e, reader)) ∨
    ∀ clock deadline reader, readBounded py clock contentLength maxBodySize where_ deadline truncate
      reader =
        let loop := readLoop clock where_ deadline (maxBodySize.toNat + 1) (maxBodySize.toNat + 1) []
          reader
        (judged where_ maxBodySize truncate loop.1, loop.2) := by
  cases valid : assertValidMaxBodySize maxBodySize with
  | error e => exact .inl ⟨e, fun clock deadline reader => by simp only [readBounded_eq, valid]⟩
  | ok _ =>
    cases quiet : if truncate then none else announcedOver py contentLength maxBodySize with
    | some size =>
      left
      simp only [readBounded_eq, valid, quiet]
      exact ⟨_, fun clock deadline reader => rfl⟩
    | none =>
      refine .inr fun clock deadline reader => ?_
      simp only [readBounded_eq, valid, quiet]
      rcases readLoop clock where_ deadline (maxBodySize.toNat + 1) (maxBodySize.toNat + 1) []
        reader with ⟨e | buffer, after⟩
      · rfl
      · simp only [judged]
        split_ifs <;> rfl

/-- So does a bounded read. -/
theorem readBounded_untimed {py : Interpreter} {contentLength : Option Str} {maxBodySize : Int}
    {truncate : Bool} {reader : Reader}
    (inTime : ∀ tick ∈ Set.Ico reader.tick (readBounded py clock contentLength maxBodySize where_
      deadline truncate reader).2.tick, clock tick ≤ deadline) :
    (readBounded py clock contentLength maxBodySize where_ deadline truncate reader).1 =
      (readBounded py (fun _ => 0) contentLength maxBodySize where_ 0 truncate
        ⟨reader.arrivals, 0⟩).1 := by
  rcases readBounded_judged py contentLength maxBodySize where_ truncate with ⟨e, refused⟩ | loops
  · rw [refused, refused]
  · rw [loops] at inTime
    rw [loops, loops]
    exact congrArg (judged where_ maxBodySize truncate) (readLoop_untimed inTime 0)

end Untimed

/-! ### What an exchange does -/

/-- What keeps an exchange from coming to its response, but for what it writes: before it is over it is
late, or something outside raises. -/
inductive Hindered (world : World) (deadline : ℚ) (start stop : Nat) : Prop
  | late {tick : Nat} (within : tick ∈ Set.Ico start stop) (expired : deadline ≤ world.clock tick)
  | probe {tick : Nat} {e : Exc} (within : tick ∈ Set.Ico start stop)
    (raised : world.probe tick = .error e)
  | factory {tick : Nat} {e : Exc} (within : tick ∈ Set.Ico start stop)
    (raised : world.factory tick = some e)
  | settimeout {tick : Nat} {e : Exc} (within : tick ∈ Set.Ico start stop)
    (raised : world.settimeout tick = some e)

/-- How the connection to write over was come by: it was kept and is alive, none was kept, or the one
that was is dead. -/
inductive Obtained (session : Session) (key : Key) : ConnectionId → Bool → List Event → Prop
  | kept {connection : ConnectionId} (pooled : session.connections.lookup key = some connection) :
    Obtained session key connection true [.probed connection false]
  | first (absent : session.connections.lookup key = none) :
    Obtained session key session.made.length false [.opened session.made.length key]
  | replaced {dead : ConnectionId} (pooled : session.connections.lookup key = some dead) :
    Obtained session key session.made.length false
      [.probed dead true, .opened session.made.length key]

/-- What an exchange that is answered did: one of four, each a single whole write. -/
inductive Exchanged (session : Session) (key : Key) : List Event → Prop
  | kept {connection : ConnectionId} (pooled : session.connections.lookup key = some connection) :
    Exchanged session key [.probed connection false, .requested connection none]
  | first (absent : session.connections.lookup key = none) :
    Exchanged session key
      [.opened session.made.length key, .requested session.made.length none]
  | replaced {dead : ConnectionId} (pooled : session.connections.lookup key = some dead) :
    Exchanged session key [.probed dead true, .opened session.made.length key,
      .requested session.made.length none]
  | rewritten {stale : ConnectionId} {e : Exc} (pooled : session.connections.lookup key = some stale)
    (isStale : e.isStale = true) :
    Exchanged session key [.probed stale false, .requested stale (some e),
      .opened session.made.length key, .requested session.made.length none]

section Histories

variable {world : World} {key : Key} {deadline : ℚ} {where_ : Str} {session after : Session}
  {connection : ConnectionId} {response : Response} {e : Exc}

/-- What hinders the end of an exchange hinders it. -/
theorem Hindered.since {start later stop : Nat} (hindered : Hindered world deadline later stop)
    (before : start ≤ later) : Hindered world deadline start stop := by
  have widen {tick : Nat} (within : tick ∈ Set.Ico later stop) : tick ∈ Set.Ico start stop :=
    ⟨before.trans within.1, within.2⟩
  cases hindered with
  | late within expired => exact .late (widen within) expired
  | probe within raised => exact .probe (widen within) raised
  | factory within raised => exact .factory (widen within) raised
  | settimeout within raised => exact .settimeout (widen within) raised

theorem timeLeft_eq_error (raised : session.timeLeft world deadline where_ = (.error e, after)) :
    after = session.ticked ∧ Hindered world deadline session.tick after.tick := by
  unfold Session.timeLeft Session.monotonic at raised
  dsimp only at raised
  split_ifs at raised with expired
  · cases raised
    exact ⟨rfl, .late ⟨le_rfl, Nat.lt_succ_self _⟩ (sub_nonpos.mp expired)⟩
  · cases raised

theorem timeLeft_eq_ok {remaining : ℚ}
    (left : session.timeLeft world deadline where_ = (.ok remaining, after)) :
    after = session.ticked := by
  unfold Session.timeLeft Session.monotonic at left
  dsimp only at left
  split_ifs at left <;> cases left
  rfl

theorem connect_eq_error (raised : session.connect world key deadline where_ = (.error e, after)) :
    Hindered world deadline session.tick after.tick := by
  unfold Session.connect at raised
  split at raised
  · rename_i expired
    cases raised
    exact (timeLeft_eq_error expired).2
  · rename_i left
    obtain rfl := timeLeft_eq_ok left
    split at raised
    · rename_i failed
      cases raised
      exact .factory ⟨Nat.le_succ _, Nat.lt_succ_self _⟩ failed
    · cases raised

theorem connect_eq_ok {fresh : ConnectionId}
    (made : session.connect world key deadline where_ = (.ok fresh, after)) :
    fresh = session.made.length ∧ session.Extends after [.opened fresh key] := by
  unfold Session.connect at made
  split at made
  · cases made
  · rename_i left
    obtain rfl := timeLeft_eq_ok left
    split at made <;> cases made
    exact ⟨rfl, rfl, Nat.le_add_right _ 2, rfl⟩

/-- The part before the `try` comes by a connection, or is hindered. -/
theorem checkout_obtained (world : World) (key : Key) (deadline : ℚ) (where_ : Str)
    (session : Session) :
    (∃ e after, session.checkout world key deadline where_ = (.error e, after) ∧
      Hindered world deadline session.tick after.tick) ∨
    ∃ connection reused after events,
      session.checkout world key deadline where_ = (.ok (connection, reused), after) ∧
      session.Extends after events ∧ Obtained session key connection reused events ∧
      (reused = true → after.made.length = session.made.length) := by
  unfold Session.checkout
  cases pooled : session.connections.lookup key with
  | none =>
    dsimp only
    rcases made : session.connect world key deadline where_ with ⟨e | fresh, after⟩
    · exact .inl ⟨e, after, rfl, connect_eq_error made⟩
    · obtain ⟨rfl, extends_⟩ := connect_eq_ok made
      exact .inr ⟨_, false, after, _, rfl, extends_, .first pooled, nofun⟩
  | some kept =>
    simp only [Session.probe]
    cases probed : world.probe session.tick with
    | error e => exact .inl ⟨e, _, rfl, .probe ⟨le_rfl, Nat.lt_succ_self _⟩ probed⟩
    | ok dead =>
    cases dead with
    | true =>
      dsimp only
      have evicted : session.Extends (((session.note (.probed kept true)).closeConnection kept).pop key)
          [.probed kept true] := ⟨rfl, Nat.le_succ _, rfl⟩
      rcases made : (((session.note (.probed kept true)).closeConnection kept).pop key).connect world key
        deadline where_ with ⟨e | fresh, after⟩
      · exact .inl ⟨e, after, rfl, (connect_eq_error made).since evicted.tick⟩
      · obtain ⟨same, extends_⟩ := connect_eq_ok made
        obtain rfl : fresh = session.made.length := same.trans (List.length_modify _ _ _)
        exact .inr ⟨_, false, after, _, rfl, evicted.trans extends_, .replaced pooled, nofun⟩
    | false =>
      dsimp only
      rcases left : (session.note (.probed kept false)).timeLeft world deadline where_ with
        ⟨e | remaining, waited⟩
      · exact .inl ⟨e, waited, rfl, (timeLeft_eq_error left).2.since (Nat.le_succ _)⟩
      · obtain rfl := timeLeft_eq_ok left
        dsimp only
        cases set : world.settimeout _ with
        | some e =>
          exact .inl ⟨e, _, rfl, .settimeout ⟨Nat.le_add_right _ 2, Nat.lt_succ_self _⟩ set⟩
        | none =>
          exact .inr ⟨kept, true, _, _, rfl, ⟨rfl, Nat.le_add_right _ 3, rfl⟩, .kept pooled,
            fun _ => (List.length_modify _ _ _).trans (List.length_modify _ _ _)⟩

/-- A write that failed, of a connection that was not kept or in a way that tells no connection closed. -/
def Miswritten (session after : Session) (key : Key) : Prop :=
  ∃ events failed e, after.trace = session.trace ++ events ∧
    Event.requested failed (some e) ∈ events ∧
    ¬ (session.connections.lookup key = some failed ∧ e.isStale = true)

/-- The write is whole over the connection, or over another once the connection is found closed by it,
or fails otherwise. -/
theorem write_wrote (world : World) (key : Key) (deadline : ℚ) (where_ : Str)
    (connection : ConnectionId) (reused : Bool) (session : Session) :
    (∃ after, session.write world key deadline where_ connection reused = (none, connection, after) ∧
      session.Extends after [.requested connection none]) ∨
    (∃ stale after, session.write world key deadline where_ connection reused =
        (none, session.made.length, after) ∧ reused = true ∧ stale.isStale = true ∧
      session.Extends after [.requested connection (some stale), .opened session.made.length key,
        .requested session.made.length none]) ∨
    ∃ e last after, session.write world key deadline where_ connection reused = (some e, last, after) ∧
      (Hindered world deadline session.tick after.tick ∨ ∃ events failed e, session.Extends after events ∧
        Event.requested failed (some e) ∈ events ∧
        (reused = true ∧ failed = session.made.length ∨
          failed = connection ∧ (e.isStale && reused) = false)) := by
  unfold Session.write
  simp only [Session.request]
  cases outcome : world.request session.tick with
  | none => exact .inl ⟨_, rfl, rfl, Nat.le_succ _, rfl⟩
  | some e =>
    obtain ⟨wrote, same, written, size⟩ : ∃ wrote, wrote = (session.assign connection fun held =>
        { held with asked := session.call }).note (.requested connection (some e)) ∧
        session.Extends wrote [.requested connection (some e)] ∧
        wrote.made.length = session.made.length :=
      ⟨_, rfl, ⟨rfl, Nat.le_succ _, rfl⟩, List.length_modify _ _ _⟩
    rw [← same]
    dsimp only
    split_ifs with again
    · obtain ⟨isStale, reused_⟩ := Bool.and_eq_true_iff.mp again
      have closed : session.Extends (wrote.closeConnection connection) [.requested connection (some e)] :=
        ⟨written.trace, written.tick, written.call⟩
      rcases made : (wrote.closeConnection connection).connect world key deadline where_ with
        ⟨e' | fresh, after⟩
      · dsimp only
        exact .inr (.inr ⟨e', connection, after, rfl,
          .inl ((connect_eq_error made).since closed.tick)⟩)
      obtain ⟨fresh_, connected⟩ := connect_eq_ok made
      obtain rfl : fresh = session.made.length :=
        fresh_.trans ((List.length_modify _ _ _).trans size)
      have both := closed.trans connected
      have rewritten (raised : Option Exc) : session.Extends
          ((after.assign session.made.length fun held => { held with asked := after.call }).note
            (.requested session.made.length raised))
          [.requested connection (some e), .opened session.made.length key,
            .requested session.made.length raised] :=
        ⟨(congrArg (· ++ [Event.requested session.made.length raised]) both.trace).trans
          (List.append_assoc _ _ _), both.tick.trans (Nat.le_succ _), both.call⟩
      dsimp only
      cases world.request after.tick with
      | none => exact .inr (.inl ⟨e, _, rfl, reused_, isStale, rewritten none⟩)
      | some e' =>
        exact .inr (.inr ⟨e', _, _, rfl, .inr ⟨_, session.made.length, e', rewritten (some e'),
          List.mem_cons_of_mem _ (List.mem_cons_of_mem _ List.mem_cons_self), .inl ⟨reused_, rfl⟩⟩⟩)
    · exact .inr (.inr ⟨e, connection, _, rfl, .inr ⟨_, connection, e, written, List.mem_cons_self,
        .inr ⟨rfl, Bool.eq_false_iff.mpr again⟩⟩⟩)

/-- Nothing pooled is a connection yet to be made. -/
theorem not_pooled_fresh (idle : session.Idle) :
    session.connections.lookup key ≠ some session.made.length := by
  intro pooled
  obtain ⟨_, held, here, _⟩ := idle.pooled key _ pooled
  exact absurd (List.getElem?_eq_some_iff.mp here).1 (lt_irrefl _)

/-- What a checkout came by was made already, or is the last one made. -/
theorem Obtained.made {reused : Bool} {events : List Event}
    (obtained : Obtained session key connection reused events) :
    (reused = true → session.connections.lookup key = some connection) ∧
      (reused = false → connection = session.made.length) := by
  cases obtained with
  | kept pooled => exact ⟨fun _ => pooled, nofun⟩
  | first absent => exact ⟨nofun, fun _ => rfl⟩
  | replaced pooled => exact ⟨nofun, fun _ => rfl⟩

theorem connect_connections (world : World) (key : Key) (deadline : ℚ) (where_ : Str)
    (session : Session) :
    (session.connect world key deadline where_).2.connections = session.connections := by
  unfold Session.connect Session.timeLeft Session.monotonic
  dsimp only
  split_ifs
  · rfl
  · dsimp only
    split <;> rfl

/-- What is kept for other keys is left as it is, by a checkout as by a write. -/
theorem checkout_connections (world : World) (deadline : ℚ) (where_ : Str) (session : Session)
    {other : Key} (apart : other ≠ key) :
    (session.checkout world key deadline where_).2.connections.lookup other =
      session.connections.lookup other := by
  have connecting (session : Session) := connect_connections world key deadline where_ session
  unfold Session.checkout
  cases session.connections.lookup key with
  | none =>
    have kept := connecting session
    dsimp only
    generalize session.connect world key deadline where_ = made at kept ⊢
    obtain ⟨e | fresh, after⟩ := made <;> exact congrArg (AList.lookup other) kept
  | some pooled =>
    simp only [Session.probe]
    cases world.probe session.tick with
    | error e => rfl
    | ok dead =>
    cases dead with
    | true =>
      have kept := connecting (((session.note (.probed pooled true)).closeConnection pooled).pop key)
      have erased : (((session.note (.probed pooled true)).closeConnection pooled).pop
          key).connections.lookup other = session.connections.lookup other :=
        AList.lookup_erase_ne apart
      dsimp only
      generalize (((session.note (.probed pooled true)).closeConnection pooled).pop key).connect world
        key deadline where_ = made at kept ⊢
      obtain ⟨e | fresh, after⟩ := made <;> exact (congrArg (AList.lookup other) kept).trans erased
    | false =>
      unfold Session.timeLeft Session.monotonic
      dsimp only
      split_ifs
      · rfl
      · dsimp only
        split <;> rfl

theorem write_connections (world : World) (key : Key) (deadline : ℚ) (where_ : Str)
    (connection : ConnectionId) (reused : Bool) (session : Session) :
    (session.write world key deadline where_ connection reused).2.2.connections =
      session.connections := by
  unfold Session.write
  simp only [Session.request]
  cases world.request session.tick with
  | none => rfl
  | some e =>
    dsimp only
    split_ifs
    · have kept := connect_connections world key deadline where_
        (((session.assign connection fun held => { held with asked := session.call }).note
          (.requested connection (some e))).closeConnection connection)
      generalize Session.connect world key deadline where_ _ = made at kept ⊢
      obtain ⟨e' | fresh, after⟩ := made <;> exact kept
    · rfl

theorem getresponse_connections (world : World) (connection : ConnectionId) (session : Session) :
    (session.getresponse world connection).2.connections = session.connections := by
  unfold Session.getresponse
  dsimp only
  split <;> rfl

/-- An exchange that comes to a response keeps the connection it went over. -/
theorem sendAndReceive_kept {response : Response}
    (ran : session.sendAndReceive world key deadline where_ = (.ok (response, connection), after))
    (other : Key) : after.connections.lookup other =
      if other = key then some connection else session.connections.lookup other := by
  have looking (apart : other ≠ key) := checkout_connections world deadline where_ session apart
  unfold Session.sendAndReceive at ran
  generalize session.checkout world key deadline where_ = looked at looking ran
  obtain ⟨e | ⟨first, reused⟩, ready⟩ := looked
  · cases ran
  have writing := write_connections world key deadline where_ first reused ready
  dsimp only at ran
  generalize ready.write world key deadline where_ first reused = wrote at writing ran
  obtain ⟨_ | e, last, written⟩ := wrote
  · have reading := getresponse_connections world last written
    dsimp only at ran
    generalize written.getresponse world last = answered at reading ran
    obtain ⟨e | answer, received⟩ := answered
    · cases ran
    cases ran
    show (received.connections.insert key connection).lookup other = _
    split_ifs with same
    · rw [same, AList.lookup_insert]
    · rw [AList.lookup_insert_ne same, ← looking same]
      exact congrArg (AList.lookup other) (reading.trans writing)
  · cases ran

/-- A whole write over it makes a history. -/
theorem Obtained.written {reused : Bool} {events : List Event}
    (obtained : Obtained session key connection reused events) :
    Exchanged session key (events ++ [.requested connection none]) := by
  cases obtained with
  | kept pooled => exact .kept pooled
  | first absent => exact .first absent
  | replaced pooled => exact .replaced pooled

/-- So does a write that finds it closed, and a whole one over another. -/
theorem Obtained.rewritten {events : List Event} {stale : Exc}
    (obtained : Obtained session key connection true events) (isStale : stale.isStale = true) :
    Exchanged session key (events ++ [.requested connection (some stale),
      .opened session.made.length key, .requested session.made.length none]) := by
  cases obtained with
  | kept pooled => exact .rewritten pooled isStale

/-- An exchange comes to a response, its history one of the four, or it is hindered, wrote amiss or found
nothing that is a response. -/
theorem sendAndReceive_exchanged (world : World) (key : Key) (deadline : ℚ) (where_ : Str)
    (idle : session.Idle) :
    (∃ e after, session.sendAndReceive world key deadline where_ = (.error e, after) ∧
      (Hindered world deadline session.tick after.tick ∨ Miswritten session after key ∨
        ∃ tick, world.respond session.call tick = .error e)) ∨
    ∃ response connection after events,
      session.sendAndReceive world key deadline where_ = (.ok (response, connection), after) ∧
      (∃ tick, world.respond session.call tick = .ok response) ∧
      session.Extends after events ∧ Exchanged session key events := by
  unfold Session.sendAndReceive
  rcases checkout_obtained world key deadline where_ session with
    ⟨e, after, failed, hindered⟩ | ⟨connection, reused, ready, looked, ran, extends_, obtained, same⟩
  · rw [failed]
    exact .inl ⟨e, after, rfl, .inl hindered⟩
  obtain ⟨held, inPlay, nothing⟩ : ∃ held, InPlay ready key connection held ∧ held.unread = [] := by
    rcases checkout_cases world deadline where_ idle with ⟨_, _, _, failed, _⟩ |
      ⟨_, _, _, _, held, ran', _, _, inPlay, nothing, _⟩
    · cases failed.symm.trans ran
    · cases ran'.symm.trans ran
      exact ⟨held, inPlay, nothing⟩
  obtain ⟨kept, fresh⟩ := obtained.made
  have amiss {failed : ConnectionId} {e : Exc}
      (other : reused = true ∧ failed = ready.made.length ∨
        failed = connection ∧ (e.isStale && reused) = false) :
      ¬ (session.connections.lookup key = some failed ∧ e.isStale = true) := by
    rintro ⟨pooled, isStale⟩
    rcases other with ⟨reused_, rfl⟩ | ⟨rfl, unlike⟩
    · exact not_pooled_fresh idle (same reused_ ▸ pooled)
    · rw [isStale, Bool.true_and] at unlike
      exact not_pooled_fresh idle (fresh unlike ▸ pooled)
  obtain ⟨raised, last, written, _, wrote, _, _, inUse, _⟩ :=
    write_cases world deadline where_ inPlay nothing reused
  have tells := write_wrote world key deadline where_ connection reused ready
  rw [ran]
  dsimp only
  rw [wrote] at tells ⊢
  cases raised with
  | some e =>
    rcases tells with ⟨_, ⟨⟩, _⟩ | ⟨_, _, ⟨⟩, _⟩ | ⟨_, _, _, ⟨⟩, failed⟩
    refine .inl ⟨e, _, rfl, ?_⟩
    rcases failed with hindered | ⟨events, failed, e', writes, member, other⟩
    · exact .inl (hindered.since extends_.tick)
    · have both := extends_.trans writes
      exact .inr (.inl ⟨_, failed, e', both.trace, List.mem_append_right _ member, amiss other⟩)
  | none =>
    obtain ⟨events, history, exchanged⟩ : ∃ events, session.Extends written events ∧
        Exchanged session key events := by
      rcases tells with ⟨_, ⟨⟩, writes⟩ | ⟨stale, _, ⟨⟩, reused_, isStale, writes⟩ | ⟨_, _, _, ⟨⟩, _⟩
      · exact ⟨_, extends_.trans writes, obtained.written⟩
      · subst reused_
        rw [same rfl] at writes
        exact ⟨_, extends_.trans writes, obtained.rewritten isStale⟩
    obtain ⟨sent, sentInPlay, sentNothing, asked⟩ := inUse rfl
    dsimp only
    simp only [Session.getresponse, sentInPlay.here, if_pos sentNothing, asked, extends_.call]
    cases answer : world.respond session.call written.tick with
    | error e => exact .inl ⟨e, _, rfl, .inr (.inr ⟨_, answer⟩)⟩
    | ok response =>
      exact .inr ⟨response, last, _, events, rfl, ⟨_, answer⟩, ⟨history.trace,
        history.tick.trans (Nat.le_succ _), history.call⟩, exchanged⟩

/-- Reading a body takes as long as the bounded read. -/
theorem readBody_tick (world : World) (session : Session) (connection : ConnectionId)
    (response : Response) (limit : Int) (where_ : Str) (deadline : ℚ) :
    (readBounded world.py world.clock response.contentLength
      (if clientError ≤ response.status then (maxErrorBodySize : Int) else limit) where_ deadline
      (decide (clientError ≤ response.status)) ⟨response.arrivals, session.tick⟩).2.tick ≤
    (session.readBody world connection response limit where_ deadline).2.tick := by
  have same : (if decide (clientError ≤ response.status) then (maxErrorBodySize : Int) else limit) =
      if clientError ≤ response.status then (maxErrorBodySize : Int) else limit := by
    simp only [decide_eq_true_eq]
  unfold Session.readBody
  dsimp only
  rw [same]
  generalize readBounded world.py world.clock response.contentLength _ where_ deadline _ _ = ran
  obtain ⟨e | body, reader⟩ := ran
  · exact le_rfl
  · cases decide (clientError ≤ response.status)
    · exact le_rfl
    · exact Nat.le_succ _

theorem Exchanged.of_same {other : Session} {events : List Event}
    (exchanged : Exchanged session key events) (pool : other.connections = session.connections)
    (made : other.made.length = session.made.length) : Exchanged other key events := by
  cases exchanged with
  | kept pooled => exact .kept (pool ▸ pooled)
  | first absent => exact made ▸ .first (pool ▸ absent)
  | replaced pooled => exact made ▸ .replaced (pool ▸ pooled)
  | rewritten pooled isStale => exact made ▸ .rewritten (pool ▸ pooled) isStale

end Histories

/-! ### A call, whatever came before it -/

section Calls

variable {world : World} {session : Session} {request : Request} {timeout : Timeout}
  {maxBodySize : Int} {parts : Url} {response : Response}

theorem send_answers (idle : session.Idle) (split : splitUrl world.urllib request.fullUrl = .ok parts)
    (waits : 0 < timeout.seconds ∧ timeout.seconds ≤ maxTimeout) (limit : 0 ≤ maxBodySize)
    (responds : ∀ tick, world.respond (session.call + 1) tick = .ok response)
    (unhindered : ¬ Hindered world (world.clock session.tick + timeout.seconds) session.tick
      (session.send world request timeout maxBodySize).2.tick)
    (written : ¬ Miswritten session (session.send world request timeout maxBodySize).2 parts.key) :
    (session.send world request timeout maxBodySize).1 =
        heldTo world.py parts.where_ maxBodySize response ∧
      ∃ events, (session.send world request timeout maxBodySize).2.trace = session.trace ++ events ∧
        Exchanged session parts.key events := by
  have started : Session.Idle (Session.ticked { session with call := session.call + 1 }) := idle
  have history := sendAndReceive_exchanged world parts.key
    (world.clock session.tick + timeout.seconds) parts.where_ started
  unfold Session.send at unhindered written ⊢
  simp only [split, assertValidTimeout, if_pos waits, assertValidMaxBodySize, if_neg (not_lt.mpr limit),
    Session.monotonic] at unhindered written ⊢
  rcases history with ⟨e, after, failed, hindered⟩ |
    ⟨response', connection, after, events, ran, ⟨tick, own⟩, history, exchanged⟩
  · rw [show (parts.scheme, parts.host, Session.effectivePort parts) = parts.key from rfl, failed]
      at unhindered written
    rcases hindered with hindered | ⟨events, failed', e', trace, member, unlike⟩ | ⟨tick, nothing⟩
    · exact absurd (hindered.since (Nat.le_succ _)) unhindered
    · exact absurd ⟨events, failed', e', trace, member, unlike⟩ written
    · exact absurd ((responds tick).symm.trans nothing) (by rintro ⟨⟩)
  obtain rfl : response = response' := Except.ok.inj ((responds tick).symm.trans own)
  rw [show (parts.scheme, parts.host, Session.effectivePort parts) = parts.key from rfl, ran]
    at unhindered written ⊢
  have exchanged' : Exchanged session parts.key events := exchanged.of_same rfl rfl
  have body := @readBody_fst world response after connection maxBodySize parts.where_
    (world.clock session.tick + timeout.seconds)
  have waited := readBody_tick world after connection response maxBodySize parts.where_
    (world.clock session.tick + timeout.seconds)
  have quiet := readBody_trace world connection response maxBodySize parts.where_
    (world.clock session.tick + timeout.seconds) after
  dsimp only at unhindered written ⊢
  generalize after.readBody world connection response maxBodySize parts.where_
    (world.clock session.tick + timeout.seconds) = read at body waited quiet unhindered written ⊢
  obtain ⟨outcome, final⟩ := read
  -- whatever becomes of the connection, the call ends as the read of the body did
  have finish (last : Session) (ended : last.tick = final.tick) (trace : last.trace = final.trace)
      (unhindered : ¬ Hindered world (world.clock session.tick + timeout.seconds) session.tick
        last.tick) :
      outcome.map (fun answer => (response.status, answer.1)) =
          heldTo world.py parts.where_ maxBodySize response ∧
        ∃ events, last.trace = session.trace ++ events ∧ Exchanged session parts.key events := by
    refine ⟨?_, events, trace.trans (quiet.trans history.trace), exchanged'⟩
    have same : outcome.map (fun answer => (response.status, answer.1)) =
        (outcome.map Prod.fst).map (response.status, ·) := by
      cases outcome <;> rfl
    rw [same, body, heldTo]
    refine congrArg (Except.map _) (readBounded_untimed fun tick within => ?_)
    refine le_of_lt (not_le.mp fun late => unhindered (.late ⟨?_, ?_⟩ late))
    · exact ((Nat.le_succ _).trans history.tick).trans within.1
    · exact within.2.trans_le (waited.trans_eq ended.symm)
  cases outcome with
  | error e => exact finish _ (Session.popClose_tick _ _) (popClose_trace _ _) unhindered
  | ok answer =>
    obtain ⟨octets, ended⟩ := answer
    dsimp only at unhindered ⊢
    split_ifs at unhindered ⊢
    · exact finish _ (Session.popClose_tick _ _) (popClose_trace _ _) unhindered
    · exact finish _ (Session.popClose_tick _ _) (popClose_trace _ _) unhindered
    · exact finish _ rfl rfl unhindered

end Calls

/-- Whatever calls and closes came before it, a call that is not kept from an answer answers what its
response alone comes to, and what it did is one of four histories: each writes the request in full
once, and opens no connection where the one that was kept is alive and takes the write. -/
theorem pool_transparent (world : World) (operations : List Operation) (request : Request)
    (timeout : Timeout) (maxBodySize : Int) (parts : Url) (response : Response)
    (split : splitUrl world.urllib request.fullUrl = .ok parts)
    (waits : 0 < timeout.seconds ∧ timeout.seconds ≤ maxTimeout) (limit : 0 ≤ maxBodySize) :
    let session := Session.run world operations
    let sent := session.send world request timeout maxBodySize
    (∀ tick, world.respond (session.call + 1) tick = .ok response) →
    ¬ Hindered world (world.clock session.tick + timeout.seconds) session.tick sent.2.tick →
    ¬ Miswritten session sent.2 parts.key →
      sent.1 = heldTo world.py parts.where_ maxBodySize response ∧
        ∃ events, sent.2.trace = session.trace ++ events ∧ Exchanged session parts.key events :=
  fun responds unhindered written =>
    send_answers (run_idle world operations) split waits limit responds unhindered written

/-- The request of a page that has moved. -/
def movedRequest : Request :=
  ⟨str "http://localhost:8332/", str "GET", str "/", none, []⟩

/-- The second call goes over the connection of the first. -/
theorem pool_transparent_moved :
    let session := Session.run (promptly moved) [.send movedRequest ⟨30, str "30.0"⟩ 64]
    (session.send (promptly moved) movedRequest ⟨30, str "30.0"⟩ 64).1 =
      .ok (302, str "<html>Moved</html>") := by
  intro session
  have trace : (session.send (promptly moved) movedRequest ⟨30, str "30.0"⟩ 64).2.trace =
      [.opened 0 (str "http", str "localhost", 8332), .requested 0 none, .probed 0 false,
        .requested 0 none] := by
    decide +kernel
  have before : session.trace =
      [.opened 0 (str "http", str "localhost", 8332), .requested 0 none] := by
    decide +kernel
  have answered := pool_transparent (promptly moved) [.send movedRequest ⟨30, str "30.0"⟩ 64] movedRequest
    ⟨30, str "30.0"⟩ 64 ⟨str "http", str "localhost", some 8332, str "http://localhost:8332"⟩ moved
    rfl moved_sendable.timeout (by decide) (fun _ => rfl) ?_ ?_
  · exact answered.1.trans (by decide +kernel)
  · rintro (⟨_, late⟩ | ⟨_, ⟨⟩⟩ | ⟨_, ⟨⟩⟩ | ⟨_, ⟨⟩⟩)
    have never : ¬ ((0 : ℚ) + 30 ≤ 0) := by norm_num
    exact never late
  · rintro ⟨events, failed, e, same, member, _⟩
    rw [trace, before] at same
    obtain rfl := List.append_cancel_left
      (show [Event.opened 0 (str "http", str "localhost", 8332), .requested 0 none] ++
        [.probed 0 false, .requested 0 none] = _ from same)
    simp at member

/-! ### A run of calls -/

/-- Whether an event is a connection opened for a key. -/
def Event.opens (key : Key) : Event → Bool
  | .opened _ other => other == key
  | _ => false

/-- How many connections were opened for a key. -/
def openings (key : Key) (events : List Event) : Nat :=
  events.countP (Event.opens key)

/-- Whether an event tells of no connection that was lost: no probe that found it dead, and no write
that raised. -/
def Event.isQuiet : Event → Bool
  | .probed _ dead => !dead
  | .opened _ _ => true
  | .requested _ raised => raised.isNone

def Operation.isClose : Operation → Bool
  | .send _ _ _ => false
  | .close => true

/-- Every call of a run is answered below a status of 400, and loses no connection. -/
def Steady (world : World) : Session → List Operation → Prop
  | _, [] => True
  | session, .close :: rest => Steady world session.close rest
  | session, .send request timeout maxBodySize :: rest =>
    let sent := session.send world request timeout maxBodySize
    (∃ status body, sent.1 = .ok (status, body) ∧ status < clientError) ∧
      (∀ event ∈ sent.2.trace, event.isQuiet = true) ∧ Steady world sent.2 rest

/-- Connections were opened for a key at most as often as the session was closed, and once more where
one is kept. -/
def Thrifty (closes : Nat) (session : Session) : Prop :=
  ∀ key, openings key session.trace ≤ closes + (session.connections.lookup key).isSome.toNat

section Runs

variable {world : World} {session : Session} {request : Request} {timeout : Timeout}
  {maxBodySize : Int} {closes : Nat}

theorem openings_append (key : Key) (first last : List Event) :
    openings key (first ++ last) = openings key first + openings key last :=
  List.countP_append

/-- A quiet exchange opens one connection where none was kept, and no other. -/
theorem Exchanged.openings_eq {key : Key} {events : List Event}
    (exchanged : Exchanged session key events) (quiet : ∀ event ∈ events, event.isQuiet = true)
    (other : Key) : openings other events =
      if other = key ∧ session.connections.lookup key = none then 1 else 0 := by
  cases exchanged with
  | kept pooled =>
    rw [if_neg fun absent => Option.some_ne_none _ (pooled.symm.trans absent.2)]
    rfl
  | first absent =>
    by_cases same : other = key
    · subst same
      simp [openings, Event.opens, absent]
    · simp [openings, Event.opens, same, Ne.symm same]
  | replaced pooled => exact absurd (quiet _ List.mem_cons_self) Bool.false_ne_true
  | rewritten pooled isStale =>
    exact absurd (quiet _ (List.mem_cons_of_mem _ List.mem_cons_self)) Bool.false_ne_true

theorem readBody_connections (world : World) (connection : ConnectionId) (response : Response)
    (maxBodySize : Int) (where_ : Str) (deadline : ℚ) (session : Session) :
    (session.readBody world connection response maxBodySize where_ deadline).2.connections =
      session.connections := by
  unfold Session.readBody
  dsimp only
  split
  · rfl
  · split_ifs <;> rfl

/-- A body that is no failure's is answered once it is read to its end. -/
theorem readBody_ended {connection : ConnectionId} {response : Response} {where_ : Str} {deadline : ℚ}
    {body : Bytes} {ended : Bool} {after : Session} (success : response.status < clientError)
    (read : session.readBody world connection response maxBodySize where_ deadline =
      (.ok (body, ended), after)) : ended = true := by
  unfold Session.readBody at read
  simp only [decide_eq_false (not_le.mpr success)] at read
  split at read
  · cases read
  · cases read
    rfl

/-- A call that is answered below a status of 400 keeps the connection it went over. -/
theorem send_kept (idle : session.Idle)
    (keeps : ∀ call tick response, world.respond call tick = .ok response → response.willClose = false)
    {status : Nat} {body : Bytes} {after : Session}
    (answered : session.send world request timeout maxBodySize = (.ok (status, body), after))
    (success : status < clientError) :
    ∃ key connection events, after.trace = session.trace ++ events ∧ Exchanged session key events ∧
      ∀ other, after.connections.lookup other =
        if other = key then some connection else session.connections.lookup other := by
  have started : Session.Idle (Session.ticked { session with call := session.call + 1 }) := idle
  unfold Session.send at answered
  dsimp only at answered
  split at answered
  · cases answered
  split at answered
  · cases answered
  split at answered
  · cases answered
  rename_i url _
  simp only [Session.monotonic] at answered
  rcases sendAndReceive_exchanged world (url.scheme, url.host, Session.effectivePort url)
      (world.clock session.tick + timeout.seconds) url.where_ started with ⟨e, _, failed, _⟩ |
    ⟨response, connection, received, events, ran, ⟨tick, own⟩, history, exchanged⟩
  · rw [failed] at answered
    cases answered
  have pool := sendAndReceive_kept ran
  rw [ran] at answered
  dsimp only at answered
  have quiet := readBody_trace world connection response maxBodySize url.where_
    (world.clock session.tick + timeout.seconds) received
  have same := readBody_connections world connection response maxBodySize url.where_
    (world.clock session.tick + timeout.seconds) received
  split at answered
  · cases answered
  rename_i octets ended final read
  rw [read] at quiet same
  simp only [keeps _ _ _ own, Bool.false_eq_true, if_false] at answered
  split_ifs at answered with cut
  · cases answered
    rw [readBody_ended success read] at cut
    cases cut
  · cases answered
    refine ⟨_, connection, events, quiet.trans history.trace, exchanged.of_same rfl rfl, fun other => ?_⟩
    rw [same, pool]
    rfl

theorem send_thrifty (idle : session.Idle) (thrifty : Thrifty closes session)
    (keeps : ∀ call tick response, world.respond call tick = .ok response → response.willClose = false)
    {status : Nat} {body : Bytes} {after : Session}
    (answered : session.send world request timeout maxBodySize = (.ok (status, body), after))
    (success : status < clientError) (quiet : ∀ event ∈ after.trace, event.isQuiet = true) :
    Thrifty closes after := by
  obtain ⟨key, connection, events, trace, exchanged, pool⟩ := send_kept idle keeps answered success
  intro other
  have before := thrifty other
  have opened := exchanged.openings_eq
    (fun event member => quiet event (trace ▸ List.mem_append_right _ member)) other
  rw [trace, openings_append, opened, pool]
  by_cases same : other = key
  · subst same
    cases pooled : session.connections.lookup other with
    | none => simpa [pooled] using before
    | some kept => simpa [pooled] using before
  · simpa [same] using before

theorem close_thrifty (thrifty : Thrifty closes session) : Thrifty (closes + 1) session.close := by
  intro key
  have before := thrifty key
  have kept := Bool.toNat_le (session.connections.lookup key).isSome
  rw [Session.close, closeEach_trace]
  omega

theorem steady_thrifty {operations : List Operation} (idle : session.Idle)
    (thrifty : Thrifty closes session)
    (keeps : ∀ call tick response, world.respond call tick = .ok response → response.willClose = false)
    (steady : Steady world session operations) :
    Thrifty (closes + operations.countP Operation.isClose)
      (operations.foldl (Session.step world) session) := by
  induction operations generalizing session closes with
  | nil => exact thrifty
  | cons operation rest inductionHypothesis =>
    have next : (session.step world operation).Idle := step_idle idle operation
    cases operation with
    | close =>
      have counted := inductionHypothesis next (close_thrifty thrifty) steady
      rwa [List.countP_cons_of_pos rfl, Nat.add_comm _ 1, ← Nat.add_assoc]
    | send request timeout maxBodySize =>
      obtain ⟨⟨status, body, answered, success⟩, quiet, later⟩ := steady
      have sent := send_thrifty idle thrifty keeps (Prod.ext answered rfl) success quiet
      have counted := inductionHypothesis next sent later
      rwa [List.countP_cons_of_neg Bool.false_ne_true]

end Runs

/-- While responses leave their connections open, calls that are answered below a status of 400 and
lose no connection open one for each address they go to, once for each time the session was closed
before and once more. -/
theorem connects_once (world : World) (operations : List Operation) (key : Key)
    (keeps : ∀ call tick response, world.respond call tick = .ok response → response.willClose = false)
    (steady : Steady world Session.new operations) :
    openings key (Session.run world operations).trace ≤ 1 + operations.countP Operation.isClose := by
  have idle : Session.new.Idle := Sound.new
  have start : Thrifty 0 Session.new := fun _ => Nat.zero_le _
  have thrifty : openings key (Session.run world operations).trace ≤
      0 + operations.countP Operation.isClose +
        ((Session.run world operations).connections.lookup key).isSome.toNat :=
    steady_thrifty idle start keeps steady key
  have kept := Bool.toNat_le ((Session.run world operations).connections.lookup key).isSome
  omega

/-- Two calls, a close and a call open two connections, as many as they may. -/
theorem connects_once_moved :
    let operations : List Operation := [.send movedRequest ⟨30, str "30.0"⟩ 64,
      .send movedRequest ⟨30, str "30.0"⟩ 64, .close, .send movedRequest ⟨30, str "30.0"⟩ 64]
    let opened :=
      openings (str "http", str "localhost", 8332) (Session.run (promptly moved) operations).trace
    opened ≤ 1 + operations.countP Operation.isClose ∧ opened = 2 := by
  refine ⟨connects_once (promptly moved) _ _ ?_ ?_, by decide +kernel⟩
  · rintro call tick response ⟨⟩
    rfl
  · exact ⟨⟨302, str "<html>Moved</html>", by decide +kernel, by decide⟩, by decide +kernel,
      ⟨302, str "<html>Moved</html>", by decide +kernel, by decide⟩, by decide +kernel,
      ⟨302, str "<html>Moved</html>", by decide +kernel, by decide⟩, by decide +kernel, trivial⟩

end BitcoinCoreRpc
