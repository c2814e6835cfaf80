/-
This file models a `SessionTransport` that threads share: what `__call__` and `close` do
under the lock, a step at a time, and any number of threads that do it in any order.

A thread splits its url, checks its arguments and reads the clock for its deadline before it
takes the lock, so a deadline may be spent by the time the lock comes. Each operation on a
connection, on the pool or on the clock is a step of its own, and the steps of a job come
to the exchange as one.

The main result says of every run of every threads that the exchanges happened whole and one
after another, in the order the lock was taken: the pool is sound whenever the lock is
free, each call wrote its request as one call alone would have, and each answer is the
response to its own request.
-/

import BitcoinCoreRpc.BrokenBody
import BitcoinCoreRpc.Threads

namespace BitcoinCoreRpc

open Threads

/-! ### What is done under the lock -/

namespace Session

/-- What `__call__` does under the lock. -/
def exchange (world : World) (url : Url) (deadline : ℚ) (maxBodySize : Int) (session : Session) :
    Except Exc (Nat × Bytes) × Session :=
  let session := { session with call := session.call + 1 }
  match session.sendAndReceive world url.key deadline url.where_ with
  | (.error e, session) => (.error e, session)
  | (.ok (response, connection), session) =>
    match session.readBody world connection response maxBodySize url.where_ deadline with
    | (.error e, session) => (.error e, session.popClose url.key)
    | (.ok (body, readToTheEnd), session) =>
      if response.willClose then (.ok (response.status, body), session.popClose url.key)
      else if !readToTheEnd then (.ok (response.status, body), session.popClose url.key)
      else (.ok (response.status, body), session)

/-- A call whose arguments are fine reads the clock and makes the exchange. -/
theorem send_eq_exchange {world : World} {request : Request} {timeout : Timeout} {maxBodySize : Int}
    {url : Url} (session : Session) (timed : assertValidTimeout timeout (str "http timeout") = .ok ())
    (sized : assertValidMaxBodySize maxBodySize = .ok ())
    (split : splitUrl world.urllib request.fullUrl = .ok url) :
    session.send world request timeout maxBodySize =
      session.ticked.exchange world url (world.clock session.tick + timeout.seconds) maxBodySize := by
  simp only [send, timed, sized, split]
  rfl

end Session

/-- What a thread takes the lock for. -/
inductive Use
  | send (url : Url) (deadline : ℚ) (maxBodySize : Int)
  | close

/-- What a use of the session answers: `none` for a `close`. -/
abbrev Reply := Option (Except Exc (Nat × Bytes))

/-- A use as a whole. -/
def Use.perform (world : World) (session : Session) : Use → Reply × Session
  | .send url deadline maxBodySize =>
    ((session.exchange world url deadline maxBodySize).1,
      (session.exchange world url deadline maxBodySize).2)
  | .close => (none, session.close)

/-! ### A step at a time -/

namespace Session

/-- `self._connection_factory(*key, _time_left(deadline, url))`: the clock, then the factory. -/
def connectJob (world : World) (key : Key) (deadline : ℚ) (where_ : Str) :
    Job Session (Except Exc ConnectionId) :=
  (Job.atomic (timeLeft world deadline where_)).seq fun remaining =>
    .atomic fun session =>
      match world.factory session.tick with
      | some e => (.error e, session.ticked)
      | none =>
        (.ok session.made.length,
          { session.note (.opened session.made.length key) with
            made := session.made ++ [⟨remaining, deadline, false, [], 0⟩] })

/-- The part of `_send_and_receive` before its `try`. -/
def checkoutJob (world : World) (key : Key) (deadline : ℚ) (where_ : Str) :
    Job Session (Except Exc (ConnectionId × Bool)) :=
  (Job.atomic fun session : Session => (session.connections.lookup key, session)).bind fun found =>
    match found with
    | none => (connectJob world key deadline where_).seq fun fresh => .done (.ok (fresh, false))
    | some kept => (Job.atomic (probe world kept)).seq fun dead =>
      if dead then
        (Job.atomic fun session => ((), session.closeConnection kept)).bind fun _ =>
        (Job.atomic fun session => ((), session.pop key)).bind fun _ =>
        (connectJob world key deadline where_).seq fun fresh => .done (.ok (fresh, false))
      else
        (Job.atomic (timeLeft world deadline where_)).seq fun remaining =>
        (Job.atomic fun session =>
          ((), session.assign kept fun held => { held with timeout := remaining })).bind fun _ =>
        (Job.atomic fun session =>
          ((match world.settimeout session.tick with
            | some e => .error e
            | none => .ok () : Except Exc Unit), session.ticked)).seq fun _ =>
        .atomic fun session =>
          (.ok (kept, true), session.assign kept fun held => { held with deadline := deadline })

/-- The write and the one reconnect. -/
def writeJob (world : World) (key : Key) (deadline : ℚ) (where_ : Str) (connection : ConnectionId)
    (reused : Bool) : Job Session (Option Exc × ConnectionId) :=
  (Job.atomic (request world connection)).bind fun raised =>
    match raised with
    | none => .done (none, connection)
    | some e =>
      if e.isStale && reused then
        (Job.atomic fun session => ((), session.closeConnection connection)).bind fun _ =>
        (connectJob world key deadline where_).bind fun made =>
          match made with
          | .error e => .done (some e, connection)
          | .ok fresh => (Job.atomic (request world fresh)).bind fun raised => .done (raised, fresh)
      else .done (some e, connection)

/-- The `except` of `_send_and_receive`. -/
def dropJob (key : Key) (connection : ConnectionId) (e : Exc) :
    Job Session (Except Exc (Response × ConnectionId)) :=
  (Job.atomic fun session => ((), session.closeConnection connection)).bind fun _ =>
    .atomic fun session => (.error e, session.pop key)

/-- `_send_and_receive` -/
def sendAndReceiveJob (world : World) (key : Key) (deadline : ℚ) (where_ : Str) :
    Job Session (Except Exc (Response × ConnectionId)) :=
  (checkoutJob world key deadline where_).seq fun checked =>
    (writeJob world key deadline where_ checked.1 checked.2).bind fun written =>
      match written with
      | (some e, connection) => dropJob key connection e
      | (none, connection) =>
        (Job.atomic (getresponse world connection)).bind fun answered =>
          match answered with
          | .error e => dropJob key connection e
          | .ok response => .atomic fun session => (.ok (response, connection), session.put key connection)

/-- The loop of `_read_bounded`: the clock, then the receive. -/
def readLoopJob (world : World) (connection : ConnectionId) (where_ : Str) (deadline : ℚ) :
    (fuel remaining : Nat) → Bytes → List Arrival → Job Session (Except Exc (Bytes × List Arrival))
  | 0, _, buffer, arrivals => .done (.ok (buffer, arrivals))
  | fuel + 1, remaining, buffer, arrivals =>
    if remaining = 0 then .done (.ok (buffer, arrivals))
    else
      (Job.atomic (monotonic world)).bind fun now =>
        if deadline < now then .done (.error (stillArriving where_))
        else
          (Job.atomic fun session =>
            (read1 (min remaining readChunk) arrivals, session.assign connection fun held =>
              { held with unread := (read1 (min remaining readChunk) arrivals).2 })).bind fun received =>
            match received with
            | (.error e, _) => .done (.error e)
            | (.ok [], rest) => .done (.ok (buffer, rest))
            | (.ok chunk, rest) =>
              readLoopJob world connection where_ deadline fuel (remaining - chunk.length)
                (buffer ++ chunk) rest

/-- `_read_bounded`, with what it left unread. -/
def readBoundedJob (world : World) (connection : ConnectionId) (contentLength : Option Str)
    (maxBodySize : Int) (where_ : Str) (deadline : ℚ) (truncate : Bool) (arrivals : List Arrival) :
    Job Session (Except Exc (Bytes × List Arrival)) :=
  match assertValidMaxBodySize maxBodySize with
  | .error e => .done (.error e)
  | .ok () =>
    match if truncate then none else announcedOver world.py contentLength maxBodySize with
    | some size =>
      .done (.error (.fetchError (where_ ++ str ": announced " ++ intText size ++ str " bytes," ++
        str " more than the max_body_size of " ++ intText maxBodySize)))
    | none =>
      (readLoopJob world connection where_ deadline (maxBodySize.toNat + 1) (maxBodySize.toNat + 1) []
        arrivals).seq fun read =>
        if maxBodySize < read.1.length then
          if truncate then .done (.ok (read.1.take maxBodySize.toNat, read.2))
          else .done (.error (.fetchError (where_ ++
            str ": response larger than the max_body_size of " ++ intText maxBodySize)))
        else .done (.ok read)

/-- The `try` of `__call__`. -/
def readBodyJob (world : World) (connection : ConnectionId) (response : Response) (maxBodySize : Int)
    (where_ : Str) (deadline : ℚ) : Job Session (Except Exc (Bytes × Bool)) :=
  if clientError ≤ response.status then
    (readBoundedJob world connection response.contentLength maxErrorBodySize where_ deadline true
      response.arrivals).seq fun read =>
      .atomic fun session =>
        (.ok (read.1, read.2.isEmpty && world.isclosed session.tick), session.ticked)
  else
    (readBoundedJob world connection response.contentLength maxBodySize where_ deadline false
      response.arrivals).seq fun read => .done (.ok (read.1, true))

/-- `self._connections.pop(key).close()`: the pool, then the connection. -/
def popCloseJob (key : Key) : Job Session Unit :=
  (Job.atomic fun session : Session => match session.connections.lookup key with
    | some connection => (some connection, session.pop key)
    | none => (none, session)).bind fun found =>
    match found with
    | some connection => .atomic fun session => ((), session.closeConnection connection)
    | none => .done ()

/-- What `__call__` does under the lock, step by step. -/
def exchangeJob (world : World) (url : Url) (deadline : ℚ) (maxBodySize : Int) :
    Job Session (Except Exc (Nat × Bytes)) :=
  (Job.atomic fun session : Session => ((), { session with call := session.call + 1 })).bind fun _ =>
    (sendAndReceiveJob world url.key deadline url.where_).seq fun received =>
      (readBodyJob world received.2 received.1 maxBodySize url.where_ deadline).bind fun body =>
        match body with
        | .error e => (popCloseJob url.key).bind fun _ => .done (.error e)
        | .ok (body, readToTheEnd) =>
          if received.1.willClose then
            (popCloseJob url.key).bind fun _ => .done (.ok (received.1.status, body))
          else if !readToTheEnd then
            (popCloseJob url.key).bind fun _ => .done (.ok (received.1.status, body))
          else .done (.ok (received.1.status, body))

/-- The loop of `close`. -/
def closeEachJob : List ((_ : Key) × ConnectionId) → Job Session Unit
  | [] => .done ()
  | entry :: rest =>
    (Job.atomic fun session => ((), session.closeConnection entry.2)).bind fun _ => closeEachJob rest

/-- `close`, step by step. -/
def closeJob : Job Session Unit :=
  (Job.atomic fun session : Session => (session.connections.entries, session)).bind fun entries =>
    (closeEachJob entries).bind fun _ =>
      .atomic fun session => ((), { session with connections := ∅ })

end Session

/-- A use, step by step. -/
def Use.job (world : World) : Use → Job Session Reply
  | .send url deadline maxBodySize =>
    (Session.exchangeJob world url deadline maxBodySize).bind fun outcome => .done (some outcome)
  | .close => Session.closeJob.bind fun _ => .done none

/-! ### The steps come to the whole -/

namespace Session

variable {world : World} {key : Key} {deadline : ℚ} {where_ : Str} {session : Session}
  {connection : ConnectionId}

theorem connectJob_run :
    (connectJob world key deadline where_).run session = session.connect world key deadline where_ := by
  rw [connectJob, Job.run_seq, Job.run_atomic, connect]
  rcases session.timeLeft world deadline where_ with ⟨_ | remaining, after⟩
  · rfl
  · cases made : world.factory after.tick <;> simp [Job.run_atomic, made]

theorem checkoutJob_run :
    (checkoutJob world key deadline where_).run session =
      session.checkout world key deadline where_ := by
  rw [checkoutJob, Job.run_bind, Job.run_atomic, checkout]
  dsimp only
  cases session.connections.lookup key with
  | none =>
    dsimp only
    rw [Job.run_seq, connectJob_run]
    rcases session.connect world key deadline where_ with ⟨_ | fresh, after⟩ <;> rfl
  | some kept =>
    dsimp only
    rw [Job.run_seq, Job.run_atomic]
    rcases session.probe world kept with ⟨_ | _ | _, after⟩
    · rfl
    · dsimp only
      rw [if_neg Bool.false_ne_true, Job.run_seq, Job.run_atomic]
      rcases after.timeLeft world deadline where_ with ⟨_ | remaining, left⟩
      · rfl
      · dsimp only
        rw [Job.run_bind, Job.run_atomic, Job.run_seq, Job.run_atomic]
        dsimp only
        cases world.settimeout _ <;> rfl
    · dsimp only
      rw [if_pos rfl, Job.run_bind, Job.run_atomic, Job.run_bind, Job.run_atomic, Job.run_seq,
        connectJob_run]
      rcases ((after.closeConnection kept).pop key).connect world key deadline where_ with
        ⟨_ | fresh, last⟩ <;> rfl

theorem writeJob_run {reused : Bool} {raised : Option Exc} {last : ConnectionId} {after : Session}
    (ran : session.write world key deadline where_ connection reused = (raised, last, after)) :
    (writeJob world key deadline where_ connection reused).run session = ((raised, last), after) := by
  rw [writeJob, Job.run_bind, Job.run_atomic]
  unfold write at ran
  rcases written : session.request world connection with ⟨_ | e, wrote⟩
  · rw [written] at ran
    cases ran
    rfl
  · rw [written] at ran
    dsimp only at ran ⊢
    by_cases again : (e.isStale && reused) = true
    · rw [if_pos again] at ran ⊢
      rw [Job.run_bind, Job.run_atomic, Job.run_bind, connectJob_run]
      rcases connecting : (wrote.closeConnection connection).connect world key deadline where_ with
        ⟨e' | fresh, made⟩
      · rw [connecting] at ran
        cases ran
        rfl
      · rw [connecting] at ran
        cases ran
        rfl
    · rw [if_neg again] at ran ⊢
      cases ran
      rfl

theorem sendAndReceiveJob_run :
    (sendAndReceiveJob world key deadline where_).run session =
      session.sendAndReceive world key deadline where_ := by
  rw [sendAndReceiveJob, Job.run_seq, checkoutJob_run, sendAndReceive]
  rcases session.checkout world key deadline where_ with ⟨_ | ⟨connection, reused⟩, ready⟩
  · rfl
  dsimp only
  rw [Job.run_bind]
  rcases ran : ready.write world key deadline where_ connection reused with ⟨_ | e, last, written⟩
  · rw [writeJob_run ran]
    dsimp only
    rw [Job.run_bind, Job.run_atomic]
    rcases written.getresponse world last with ⟨_ | response, answered⟩ <;> rfl
  · rw [writeJob_run ran]
    rfl

/-- Setting what a connection has unread where it is set already. -/
def Unread (session : Session) (connection : ConnectionId) (arrivals : List Arrival) : Prop :=
  session.assign connection (fun held => { held with unread := arrivals }) = session

theorem assign_unread {arrivals rest : List Arrival} :
    (session.assign connection fun held => { held with unread := arrivals }).assign connection
      (fun held => { held with unread := rest }) =
    session.assign connection fun held => { held with unread := rest } := by
  simp only [assign, List.modify_modify_eq]
  rfl

theorem unread_assign {arrivals : List Arrival} :
    Unread (session.assign connection fun held => { held with unread := arrivals }) connection
      arrivals :=
  assign_unread

/-- A reader's place, written into the session it reads over. -/
def reading (session : Session) (connection : ConnectionId) (reader : Reader) : Session :=
  { session.assign connection fun held => { held with unread := reader.arrivals } with
    tick := reader.tick }

theorem reading_assign {arrivals : List Arrival} {tick : Nat} {reader : Reader} :
    reading { session.assign connection fun held => { held with unread := arrivals } with
      tick := tick } connection reader = reading session connection reader := by
  simp only [reading, assign, List.modify_modify_eq]
  rfl

/-- The loop's steps come to the loop, over a connection with as much unread as there is to
read. -/
theorem readLoopJob_run {fuel remaining : Nat} {buffer : Bytes} {arrivals : List Arrival}
    (unread : Unread session connection arrivals) {body : Except Exc Bytes} {reader : Reader}
    (ran : readLoop world.clock where_ deadline fuel remaining buffer ⟨arrivals, session.tick⟩ =
      (body, reader)) :
    (readLoopJob world connection where_ deadline fuel remaining buffer arrivals).run session =
      (body.map fun octets => (octets, reader.arrivals), session.reading connection reader) := by
  induction fuel generalizing session remaining buffer arrivals with
  | zero =>
    cases ran
    exact congrArg _ unread.symm
  | succ fuel inductionHypothesis =>
    rw [readLoopJob]
    rw [readLoop_succ] at ran
    by_cases none_left : remaining = 0
    · rw [if_pos none_left] at ran ⊢
      cases ran
      exact congrArg _ unread.symm
    rw [if_neg none_left] at ran ⊢
    have clock : (Job.atomic (monotonic world)).run session = (world.clock session.tick, session.ticked) :=
      rfl
    rw [Job.run_bind, clock]
    by_cases late : deadline < world.clock session.tick
    · rw [if_pos late] at ran ⊢
      cases ran
      exact congrArg _ (congrArg ticked unread).symm
    rw [if_neg late] at ran ⊢
    rw [Job.run_bind, Job.run_atomic]
    dsimp only at ran ⊢
    generalize read1 (min remaining readChunk) arrivals = received at ran ⊢
    obtain ⟨e | chunk, rest⟩ := received
    · cases ran
      rfl
    cases chunk with
    | nil =>
      cases ran
      rfl
    | cons first more =>
      let received := session.ticked.assign connection fun held => { held with unread := rest }
      have left := @inductionHypothesis received _ _ _ unread_assign ran
      exact left.trans (congrArg _ (@reading_assign session.ticked connection rest _ reader))

/-- A bounded read that answers or not, with what it leaves of the connection. -/
theorem readBoundedJob_run {contentLength : Option Str} {maxBodySize : Int} {truncate : Bool}
    {arrivals : List Arrival} (unread : Unread session connection arrivals)
    {body : Except Exc Bytes} {reader : Reader}
    (ran : readBounded world.py world.clock contentLength maxBodySize where_ deadline truncate
      ⟨arrivals, session.tick⟩ = (body, reader)) :
    (readBoundedJob world connection contentLength maxBodySize where_ deadline truncate arrivals).run
        session =
      (body.map fun octets => (octets, reader.arrivals), session.reading connection reader) := by
  rw [readBounded_eq] at ran
  unfold readBoundedJob
  generalize assertValidMaxBodySize maxBodySize = sized at ran ⊢
  cases sized with
  | error e =>
    cases ran
    exact congrArg _ unread.symm
  | ok _ =>
    dsimp only at ran ⊢
    generalize (if truncate then none else announcedOver world.py contentLength maxBodySize) = announced
      at ran ⊢
    cases announced with
    | some size =>
      cases ran
      exact congrArg _ unread.symm
    | none =>
      dsimp only at ran ⊢
      rcases loops : readLoop world.clock where_ deadline (maxBodySize.toNat + 1)
        (maxBodySize.toNat + 1) [] ⟨arrivals, session.tick⟩ with ⟨e | buffer, read⟩
      · rw [loops] at ran
        rw [Job.run_seq, readLoopJob_run unread loops]
        cases ran
        rfl
      · rw [loops] at ran
        rw [Job.run_seq, readLoopJob_run unread loops]
        dsimp only [Except.map] at ran ⊢
        split_ifs at ran ⊢ <;> cases ran <;> rfl

theorem readBodyJob_run {response : Response} {maxBodySize : Int}
    (unread : Unread session connection response.arrivals) :
    (readBodyJob world connection response maxBodySize where_ deadline).run session =
      session.readBody world connection response maxBodySize where_ deadline := by
  unfold readBodyJob readBody
  by_cases failure : clientError ≤ response.status
  · simp only [failure, decide_true, if_true]
    rcases ran : readBounded world.py world.clock response.contentLength maxErrorBodySize where_
      deadline true ⟨response.arrivals, session.tick⟩ with ⟨e | body, reader⟩ <;>
    · rw [Job.run_seq, readBoundedJob_run unread ran]
      rfl
  · simp only [failure, decide_false, if_false, Bool.false_eq_true]
    rcases ran : readBounded world.py world.clock response.contentLength maxBodySize where_
      deadline false ⟨response.arrivals, session.tick⟩ with ⟨e | body, reader⟩ <;>
    · rw [Job.run_seq, readBoundedJob_run unread ran]
      rfl

theorem popCloseJob_run : (popCloseJob key).run session = ((), session.popClose key) := by
  rw [popCloseJob, Job.run_bind, Job.run_atomic, popClose]
  cases session.connections.lookup key <;> rfl

/-- A response that came has its body unread. -/
theorem sendAndReceive_unread {response : Response} {after : Session}
    (ran : session.sendAndReceive world key deadline where_ = (.ok (response, connection), after)) :
    Unread after connection response.arrivals := by
  unfold sendAndReceive at ran
  generalize session.checkout world key deadline where_ = checked at ran
  obtain ⟨_ | ⟨first, reused⟩, ready⟩ := checked
  · cases ran
  dsimp only at ran
  generalize ready.write world key deadline where_ first reused = wrote at ran
  obtain ⟨_ | e, last, written⟩ := wrote
  · dsimp only [getresponse] at ran
    split at ran
    · cases ran
    · next answered =>
      split at answered
      · cases answered
      · cases answered
        cases ran
        exact congrArg (fun assigned : Session => assigned.put key connection)
          (@assign_unread written.ticked connection response.arrivals response.arrivals)
  · cases ran

theorem exchangeJob_run {url : Url} {maxBodySize : Int} :
    (exchangeJob world url deadline maxBodySize).run session =
      session.exchange world url deadline maxBodySize := by
  rw [exchangeJob, Job.run_bind, Job.run_atomic, Job.run_seq, sendAndReceiveJob_run, exchange]
  dsimp only
  rcases ran : Session.sendAndReceive world url.key deadline url.where_
    { session with call := session.call + 1 } with ⟨_ | ⟨response, connection⟩, received⟩
  · rfl
  dsimp only
  rw [Job.run_bind, readBodyJob_run (sendAndReceive_unread ran)]
  rcases received.readBody world connection response maxBodySize url.where_ deadline with
    ⟨e | ⟨body, ended⟩, read⟩
  · dsimp only
    rw [Job.run_bind, popCloseJob_run]
    rfl
  · dsimp only
    split_ifs
    · rw [Job.run_bind, popCloseJob_run]
      rfl
    · rw [Job.run_bind, popCloseJob_run]
      rfl
    · rfl

theorem closeEachJob_run (entries : List ((_ : Key) × ConnectionId)) :
    (closeEachJob entries).run session =
      ((), entries.foldl (fun session entry => session.closeConnection entry.2) session) := by
  induction entries generalizing session with
  | nil => rfl
  | cons entry rest inductionHypothesis =>
    rw [closeEachJob, Job.run_bind, Job.run_atomic, inductionHypothesis]
    rfl

theorem closeJob_run : closeJob.run session = ((), session.close) := by
  rw [closeJob, Job.run_bind, Job.run_atomic, Job.run_bind, closeEachJob_run]
  rfl

end Session

/-- The steps of a use come to the use as a whole. -/
theorem Use.job_run (world : World) (use : Use) (session : Session) :
    (use.job world).run session = use.perform world session := by
  cases use with
  | send url deadline maxBodySize => rw [Use.job, Job.run_bind, Session.exchangeJob_run]; rfl
  | close => rw [Use.job, Job.run_bind, Session.closeJob_run]; rfl

/-! ### One exchange -/

/-- An exchange writes its request at most twice, leaves the session between two calls, and answers
the response to its own request, whatever its deadline. -/
theorem exchange_cases (world : World) (url : Url) (deadline : ℚ) (maxBodySize : Int)
    {session : Session} (idle : session.Idle) :
    ∃ outcome after events, session.exchange world url deadline maxBodySize = (outcome, after) ∧
      { session with call := session.call + 1 }.Extends after events ∧
      WritesOnce session url.key events ∧ after.Idle ∧
      ∀ status body, outcome = .ok (status, body) → ∃ response tick,
        world.respond after.call tick = .ok response ∧ status = response.status ∧
        body = answerBody response := by
  have started : Session.Idle { session with call := session.call + 1 } := idle
  unfold Session.exchange
  rcases sendAndReceive_cases world url.key deadline url.where_ started with
    ⟨e, after, events, failed, extends_, once, stillIdle⟩ |
    ⟨response, connection, received, events, held, tick, ran, extends_, once, inPlay, _, pooled, own, _⟩
  · simp only [failed]
    exact ⟨_, _, events, rfl, extends_, ⟨once.atMostTwo, once.second, once.last⟩, stillIdle, nofun⟩
  obtain ⟨outcome, after, heldAfter, read, samePool, later, sameCall, sameTrace, stillInPlay,
    answered⟩ := readBody_cases world inPlay response maxBodySize url.where_ deadline
  have whole : Session.Extends { session with call := session.call + 1 } after events :=
    ⟨sameTrace.trans extends_.trace, extends_.tick.trans later, sameCall.trans extends_.call⟩
  have closed : Session.Extends { session with call := session.call + 1 } (after.popClose url.key)
      events := by
    have both := whole.trans (.popClose after url.key)
    rwa [List.append_nil] at both
  have writesOnce : WritesOnce session url.key events := ⟨once.atMostTwo, once.second, once.last⟩
  have stillPooled : after.connections.lookup url.key = some connection := samePool ▸ pooled
  have dropped := stillInPlay.popClose stillPooled
  simp only [ran, read]
  cases outcome with
  | error e => exact ⟨_, _, events, rfl, closed, writesOnce, dropped, nofun⟩
  | ok answer =>
    obtain ⟨body, ended⟩ := answer
    obtain ⟨same, nothing⟩ := answered body ended rfl
    have owns {final : Session} (kept : final.call = received.call) (status : Nat) (body' : Bytes)
        (returned : (.ok (response.status, body) : Except Exc (Nat × Bytes)) = .ok (status, body')) :
        ∃ response tick, world.respond final.call tick = .ok response ∧ status = response.status ∧
          body' = answerBody response := by
      cases returned
      exact ⟨response, tick, by rw [kept, extends_.call]; exact own, rfl, same⟩
    dsimp only
    split_ifs with willClose cut
    · exact ⟨_, _, events, rfl, closed, writesOnce, dropped,
        owns ((Session.popClose_call _ _).trans sameCall)⟩
    · exact ⟨_, _, events, rfl, closed, writesOnce, dropped,
        owns ((Session.popClose_call _ _).trans sameCall)⟩
    · refine ⟨_, _, events, rfl, whole, writesOnce, ?_, owns sameCall⟩
      exact stillInPlay.keep stillPooled (nothing (by simpa using cut))

theorem perform_idle {world : World} {session : Session} (idle : session.Idle) (use : Use) :
    (use.perform world session).2.Idle := by
  cases use with
  | close => exact close_idle idle
  | send url deadline maxBodySize =>
    obtain ⟨outcome, after, events, ran, _, _, stillIdle, _⟩ :=
      exchange_cases world url deadline maxBodySize idle
    rw [Use.perform, ran]
    exact stillIdle

/-! ### Threads over one session -/

section Shared

variable {ι : Type} [DecidableEq ι]

/-- A thread comes to the lock with the steps of a use it asks for. -/
def AsksFor (world : World) (asks : ι → List Reply → Use → Prop) (thread : ι) (replies : List Reply)
    (job : Job Session Reply) : Prop :=
  ∃ use, asks thread replies use ∧ job = use.job world

variable {world : World} {asks : ι → List Reply → Use → Prop} {system : System ι Session Reply}

/-- Whatever the threads ask for and however they move, the uses are served whole and one after
another: the session is what those served left of it whenever the lock is free; whoever has the
lock has it alone, and will leave of the session what its use alone would; each answer is what its
thread asked for then, performed on what those before it left; and whoever waits can be served. -/
theorem shared_serial (moves : Moves (AsksFor world asks) (.new .new) system) :
    (∃ between, Serial Session.new system.served between ∧
      (system.held = false → system.state = between) ∧
      ∀ thread job rest, system.phase thread = .inside job rest →
        rest.run system.state = job.run between ∧
        ∀ other job' rest', system.phase other = .inside job' rest' → other = thread) ∧
    (∀ earlier thread job reply later, system.served = earlier ++ (thread, job, reply) :: later →
      ∃ use between, asks thread (answers earlier thread) use ∧ job = use.job world ∧
        Serial Session.new earlier between ∧ reply = (use.perform world between).1) ∧
    ∀ thread job, system.phase thread = .waiting job →
      ∃ after reply earlier, Moves (AsksFor world asks) system after ∧
        after.served = earlier ++ [(thread, job, reply)] := by
  have guarded := guarded_moves moves
  obtain ⟨between, serial, free, left⟩ := guarded.serial
  refine ⟨⟨between, serial, free, fun thread job rest inside => ⟨left thread job rest inside,
    (guarded.alone thread job rest inside).2⟩⟩, ?_, fun thread job waits => moves_serve moves waits⟩
  intro earlier thread job reply later whole
  obtain ⟨use, asked, rfl⟩ := (asked_moves moves).served earlier thread job reply later whole
  rw [whole] at serial
  obtain ⟨before, front, answered⟩ := serial.split
  rw [Use.job_run] at answered
  exact ⟨use, before, asked, rfl, front, answered.symm⟩

/-- Uses one after another leave the session between two calls. -/
theorem serial_idle (moves : Moves (AsksFor world asks) (.new .new) system)
    {earlier later : List (ι × Job Session Reply × Reply)} {between : Session}
    (whole : system.served = earlier ++ later) (serial : Serial Session.new earlier between) :
    between.Idle := by
  refine serial.keeps Sound.new fun entry member session idle => ?_
  obtain ⟨front, back, rfl⟩ := List.append_of_mem member
  obtain ⟨use, _, same⟩ := (asked_moves moves).served front entry.1 entry.2.1 entry.2.2 (back ++ later)
    (by rw [whole]; simp)
  rw [same, Use.job_run]
  exact perform_idle idle use

/-- However threads share a session: whenever the lock is free the pool has each key once, with a
connection that is open, has nothing unread and no other key has, every other connection is closed,
and nothing was written to a connection found dead; and each call that was served did to
connections what one call alone may, a second write only over a connection it opened and after a
stale one over a kept connection probed alive, was answered the response to its own request, and was
`__call__` whole where its clock was the last thing read before it. -/
theorem shared_pool (moves : Moves (AsksFor world asks) (.new .new) system) :
    (system.held = false → system.state.connections.keys.Nodup ∧
      (∀ key connection, system.state.connections.lookup key = some connection →
        (∃ held, system.state.made[connection]? = some held ∧
          held.closed = false ∧ held.unread = []) ∧
        ∀ other, system.state.connections.lookup other = some connection → other = key) ∧
      (∀ connection held, system.state.made[connection]? = some held →
        held.closed = true ∨ ∃ key, system.state.connections.lookup key = some connection) ∧
      system.state.trace.Pairwise fun earlier later =>
        ∀ connection raised, earlier = .probed connection true →
          later ≠ .requested connection raised) ∧
    ∀ earlier thread url deadline maxBodySize reply later,
      system.served =
        earlier ++ (thread, (Use.send url deadline maxBodySize).job world, reply) :: later →
      ∃ before after events, Serial Session.new earlier before ∧
        Serial Session.new
          (earlier ++ [(thread, (Use.send url deadline maxBodySize).job world, reply)]) after ∧
        after.trace = before.trace ++ events ∧ after.call = before.call + 1 ∧
        (requests events).length ≤ 2 ∧
        (∀ first second rest, requests events = first :: second :: rest →
          Event.opened second.1 url.key ∈ events ∧
          Event.probed first.1 false ∈ events ∧ ∃ e, first.2 = some e ∧ e.isStale = true) ∧
        (∀ front connection rest, requests events = front ++ (connection, none) :: rest → rest = []) ∧
        (∀ status body, reply = some (.ok (status, body)) → ∃ response tick,
          world.respond after.call tick = .ok response ∧ status = response.status ∧
          body = if clientError ≤ response.status then
              (contents response.arrivals).take maxErrorBodySize
            else contents response.arrivals) ∧
        ∀ (session : Session) (request : Request) (timeout : Timeout),
          assertValidTimeout timeout (str "http timeout") = .ok () →
          assertValidMaxBodySize maxBodySize = .ok () →
          splitUrl world.urllib request.fullUrl = .ok url → before = session.ticked →
          deadline = world.clock session.tick + timeout.seconds →
          reply = some (session.send world request timeout maxBodySize).1 ∧
            after = (session.send world request timeout maxBodySize).2 := by
  obtain ⟨between, serial, free, _⟩ := (guarded_moves moves).serial
  constructor
  · intro released
    rw [free released]
    have idle := serial_idle moves (List.append_nil _).symm serial
    exact ⟨AList.keys_nodup _, fun key connection here => ⟨(idle.pooled key connection here).2,
      fun other there => idle.apart other key connection there here⟩,
      fun connection held here => idle.accounted connection held here nofun, idle.silent⟩
  · intro earlier thread url deadline maxBodySize reply later whole
    rw [whole] at serial
    obtain ⟨before, front, answered⟩ := serial.split
    have idle := serial_idle moves whole front
    obtain ⟨outcome, after, events, ran, extends_, once, _, owns⟩ :=
      exchange_cases world url deadline maxBodySize idle
    have job : ((Use.send url deadline maxBodySize).job world).run before = (reply, after) := by
      refine Prod.ext answered ?_
      rw [Use.job_run, Use.perform, ran]
    rw [Use.job_run, Use.perform, ran] at job
    obtain rfl := congrArg Prod.fst job
    refine ⟨before, after, events, front, .snoc front ?_, extends_.trace, extends_.call, once.atMostTwo,
      fun first second rest two => (once.second first second rest two).2, once.last, ?_, ?_⟩
    · rw [Use.job_run, Use.perform, ran]
    · rintro status body ⟨⟩
      exact owns status body rfl
    · rintro session request timeout timed sized split rfl rfl
      rw [Session.send_eq_exchange session timed sized split, ran]
      exact ⟨rfl, rfl⟩

end Shared

/-! ### Two threads, one session -/

/-- Two calls to one node by two threads, and nothing else. -/
def oneCallEach (_ : Bool) (replies : List Reply) (use : Use) : Prop :=
  replies = [] ∧ use = .send localhost 30 16

/-- A node that answers every request `{}` at once. -/
def emptyObject : World := promptly ⟨200, some (str "2"), false, [.octets 0x7B [0x7D]]⟩

/-- The second thread waits while the first is inside. -/
theorem exists_served : ∃ system : System Bool Session Reply,
    Moves (AsksFor emptyObject oneCallEach) (.new .new) system ∧ system.held = false ∧
    ∃ reply, system.served = [(false, (Use.send localhost 30 16).job emptyObject, reply)] ∧
      system.phase true = .waiting ((Use.send localhost 30 16).job emptyObject) := by
  let job := (Use.send localhost 30 16).job emptyObject
  have asks (thread : Bool) : AsksFor emptyObject oneCallEach thread [] job := ⟨_, ⟨rfl, rfl⟩, rfl⟩
  let waiting : Bool → Phase Session Reply :=
    Function.update (Function.update (fun _ => .idle) false (.waiting job)) true (.waiting job)
  let entered : System Bool Session Reply :=
    ⟨.new, true, Function.update waiting false (.inside job job), []⟩
  have moves : Moves (AsksFor emptyObject oneCallEach) (.new .new) entered :=
    ((Relation.ReflTransGen.single (.arrive rfl (asks false))).tail (.arrive rfl (asks true))).tail
      (.enter rfl rfl)
  obtain ⟨after, reply, later, free, served, others⟩ :=
    moves_leave (AsksFor emptyObject oneCallEach) job entered (Function.update_self ..)
  exact ⟨after, moves.trans later, free, reply, served, others true Bool.noConfusion⟩

theorem shared_serial_two : ∃ system : System Bool Session Reply,
    Moves (AsksFor emptyObject oneCallEach) (.new .new) system ∧ system.held = false ∧
    ∃ reply, system.served = [(false, (Use.send localhost 30 16).job emptyObject, reply)] ∧
      reply = some (.ok (200, str "{}")) ∧
      ∃ after reply' earlier, Moves (AsksFor emptyObject oneCallEach) system after ∧
        after.served = earlier ++ [(true, (Use.send localhost 30 16).job emptyObject, reply')] := by
  obtain ⟨system, moves, free, reply, served, waits⟩ := exists_served
  obtain ⟨_, answered, served_⟩ := shared_serial moves
  refine ⟨system, moves, free, reply, served, ?_, served_ true _ waits⟩
  obtain ⟨use, between, ⟨_, rfl⟩, _, nothing, rfl⟩ := answered [] false _ reply [] served
  rw [serial_nil nothing]
  decide +kernel

theorem shared_pool_two : ∃ system : System Bool Session Reply,
    Moves (AsksFor emptyObject oneCallEach) (.new .new) system ∧
    system.state.connections.keys.Nodup ∧
    ∃ after, Serial Session.new system.served after ∧ (requests after.trace).length ≤ 2 := by
  obtain ⟨system, moves, free, reply, served, _⟩ := exists_served
  obtain ⟨pool, once⟩ := shared_pool moves
  obtain ⟨before, after, events, front, whole, trace, _, atMostTwo, _⟩ :=
    once [] false localhost 30 16 reply [] served
  rw [serial_nil front] at trace
  exact ⟨system, moves, (pool free).1, after, served ▸ whole, trace ▸ atMostTwo⟩

end BitcoinCoreRpc
