/-
This file models `SessionTransport`: the pool of kept connections, one exchange over it
with its probe, its one reconnect and its bounded read, and `close`.

Everything a peer, a socket or the clock decides is a function of how many such
operations came before it, so that a run is determined by its world and any order of
failures is one of them. A connection is its number among those the factory has made;
what it holds is whether this transport closed it and what of its last response has
not been read. The trace of a session is what it did to connections in order.

There are two results, each about every world and every run of calls and closes: no
request is written twice in full, and no connection is kept that is closed or inside a
response, so that an answer is always the one to its own request.
-/

import Mathlib.Data.List.AList
import BitcoinCoreRpc.Transport

namespace BitcoinCoreRpc

/-! ### The world -/

/-- `(scheme, host, port)` -/
abbrev Key := Str × Str × Nat

/-- A connection, as its number among those the factory made. -/
abbrev ConnectionId := Nat

/-- `isinstance(e, _STALE_CONNECTION_ERRORS)` -/
def Exc.isStale : Exc → Bool
  | .brokenPipeError _ | .connectionAbortedError _ | .connectionResetError _ => true
  | _ => false

/-- What is outside the package. The last argument of each is how many operations came
before. -/
structure World where
  py : Interpreter
  urllib : Urllib
  /-- `monotonic()` -/
  clock : Nat → ℚ
  /-- `_is_reused_connection_dead` -/
  probe : Nat → Except Exc Bool
  /-- What `connection_factory` raises. -/
  factory : Nat → Option Exc
  /-- What `connection.sock.settimeout` raises. -/
  settimeout : Nat → Option Exc
  /-- What `connection.request` raises. -/
  request : Nat → Option Exc
  /-- What `connection.getresponse` answers to the request of one call. -/
  respond : Nat → Nat → Except Exc Response
  /-- What it makes of octets an earlier response left unread. -/
  leftover : List Arrival → Nat → Except Exc Response
  /-- Whether `response.isclosed()` tells that the body was read to its end. -/
  isclosed : Nat → Bool
  /-- What an exchange through urllib's opener comes to, whatever the status. -/
  opener : Nat → Except Exc Response

/-- A connection the factory made. -/
structure Connection where
  timeout : ℚ
  deadline : ℚ
  /-- Whether this transport closed it. -/
  closed : Bool
  /-- What is left to arrive of the response it is inside of. -/
  unread : List Arrival
  /-- The call whose request was last written over it. -/
  asked : Nat

/-- What a session did to a connection. -/
inductive Event
  | probed (connection : ConnectionId) (dead : Bool)
  | opened (connection : ConnectionId) (key : Key)
  | requested (connection : ConnectionId) (raised : Option Exc)
deriving DecidableEq

abbrev Pool := AList fun _ : Key => ConnectionId

/-- A `SessionTransport`, with what it did so far. -/
structure Session where
  /-- `_connections` -/
  connections : Pool
  /-- What `connection_factory` answered. -/
  made : List Connection
  tick : Nat
  /-- The number of the call being made. -/
  call : Nat
  trace : List Event

/-- `SessionTransport()` -/
def Session.new : Session := ⟨∅, [], 0, 0, []⟩

/-! ### One operation on a connection -/

namespace Session

/-- One more operation of the world. -/
def ticked (session : Session) : Session :=
  { session with tick := session.tick + 1 }

/-- One more operation of the world, on a connection. -/
def note (session : Session) (event : Event) : Session :=
  { session.ticked with trace := session.trace ++ [event] }

def monotonic (world : World) (session : Session) : ℚ × Session :=
  (world.clock session.tick, session.ticked)

/-- Sets attributes of a connection. -/
def assign (session : Session) (connection : ConnectionId) (change : Connection → Connection) :
    Session :=
  { session with made := session.made.modify connection change }

/-- `connection.close()` -/
def closeConnection (session : Session) (connection : ConnectionId) : Session :=
  session.assign connection fun held => { held with closed := true }

/-- `self._connections.pop(key, None)` -/
def pop (session : Session) (key : Key) : Session :=
  { session with connections := session.connections.erase key }

/-- `self._connections[key] = connection` -/
def put (session : Session) (key : Key) (connection : ConnectionId) : Session :=
  { session with connections := session.connections.insert key connection }

/-- `self._connections.pop(key).close()`. -/
def popClose (session : Session) (key : Key) : Session :=
  match session.connections.lookup key with
  | some connection => (session.pop key).closeConnection connection
  | none => session

/-- `_is_reused_connection_dead` -/
def probe (world : World) (connection : ConnectionId) (session : Session) :
    Except Exc Bool × Session :=
  match world.probe session.tick with
  | .error e => (.error e, session.ticked)
  | .ok dead => (.ok dead, session.note (.probed connection dead))

/-- `_time_left` -/
def timeLeft (world : World) (deadline : ℚ) (where_ : Str) (session : Session) :
    Except Exc ℚ × Session :=
  let (now, session) := session.monotonic world
  if deadline - now ≤ 0 then
    (.error (.fetchError (where_ ++ str ": timeout expired before the exchange completed")), session)
  else (.ok (deadline - now), session)

/-- `self._connection_factory(*key, _time_left(deadline, url))`, its deadline set. -/
def connect (world : World) (key : Key) (deadline : ℚ) (where_ : Str) (session : Session) :
    Except Exc ConnectionId × Session :=
  match session.timeLeft world deadline where_ with
  | (.error e, session) => (.error e, session)
  | (.ok remaining, session) =>
    match world.factory session.tick with
    | some e => (.error e, session.ticked)
    | none =>
      (.ok session.made.length,
        { session.note (.opened session.made.length key) with
          made := session.made ++ [⟨remaining, deadline, false, [], 0⟩] })

/-- `connection.request(...)` -/
def request (world : World) (connection : ConnectionId) (session : Session) :
    Option Exc × Session :=
  let raised := world.request session.tick
  (raised, (session.assign connection fun held => { held with asked := session.call }).note
    (.requested connection raised))

/-- `connection.getresponse()`: the response to the request last written over a connection that
has nothing unread, and whatever the unread octets parse as over one that has. -/
def getresponse (world : World) (connection : ConnectionId) (session : Session) :
    Except Exc Response × Session :=
  let answer : Except Exc Response := match session.made[connection]? with
    | none => .error (.httpException [])
    | some held =>
      if held.unread = [] then world.respond held.asked session.tick
      else world.leftover held.unread session.tick
  match answer with
  | .error e => (.error e, session.ticked)
  | .ok response =>
    (.ok response,
      session.ticked.assign connection fun held => { held with unread := response.arrivals })

/-! ### One exchange -/

/-- The connection `_send_and_receive` writes over, and whether it was kept: the part before its
`try`. A kept connection the probe reports dead is closed and dropped before anything else can
raise. -/
def checkout (world : World) (key : Key) (deadline : ℚ) (where_ : Str) (session : Session) :
    Except Exc (ConnectionId × Bool) × Session :=
  match session.connections.lookup key with
  | none =>
    match session.connect world key deadline where_ with
    | (.error e, session) => (.error e, session)
    | (.ok fresh, session) => (.ok (fresh, false), session)
  | some kept =>
    match session.probe world kept with
    | (.error e, session) => (.error e, session)
    | (.ok true, session) =>
      match ((session.closeConnection kept).pop key).connect world key deadline where_ with
      | (.error e, session) => (.error e, session)
      | (.ok fresh, session) => (.ok (fresh, false), session)
    | (.ok false, session) =>
      match session.timeLeft world deadline where_ with
      | (.error e, session) => (.error e, session)
      | (.ok remaining, session) =>
        let session := session.assign kept fun held => { held with timeout := remaining }
        match world.settimeout session.tick with
        | some e => (.error e, session.ticked)
        | none =>
          (.ok (kept, true),
            session.ticked.assign kept fun held => { held with deadline := deadline })

/-- The write, and the one reconnect: the inner `try` of `_send_and_receive`. Answers what it
raised, and the connection `connection` names when it is left. -/
def write (world : World) (key : Key) (deadline : ℚ) (where_ : Str) (connection : ConnectionId)
    (reused : Bool) (session : Session) : Option Exc × ConnectionId × Session :=
  match session.request world connection with
  | (none, session) => (none, connection, session)
  | (some e, session) =>
    if e.isStale && reused then
      match (session.closeConnection connection).connect world key deadline where_ with
      | (.error e, session) => (some e, connection, session)
      | (.ok fresh, session) =>
        let (raised, session) := session.request world fresh
        (raised, fresh, session)
    else (some e, connection, session)

/-- `_send_and_receive`, answering beside the response the connection it is read from. -/
def sendAndReceive (world : World) (key : Key) (deadline : ℚ) (where_ : Str) (session : Session) :
    Except Exc (Response × ConnectionId) × Session :=
  match session.checkout world key deadline where_ with
  | (.error e, session) => (.error e, session)
  | (.ok (connection, reused), session) =>
    match session.write world key deadline where_ connection reused with
    | (some e, connection, session) => (.error e, (session.closeConnection connection).pop key)
    | (none, connection, session) =>
      match session.getresponse world connection with
      | (.error e, session) => (.error e, (session.closeConnection connection).pop key)
      | (.ok response, session) => (.ok (response, connection), session.put key connection)

/-- The body of a response, and whether it was read to the end: the `try` of `__call__`. -/
def readBody (world : World) (connection : ConnectionId) (response : Response) (maxBodySize : Int)
    (where_ : Str) (deadline : ℚ) (session : Session) : Except Exc (Bytes × Bool) × Session :=
  let truncate := decide (clientError ≤ response.status)
  let limit : Int := if truncate then maxErrorBodySize else maxBodySize
  let (body, reader) := readBounded world.py world.clock response.contentLength limit where_
    deadline truncate ⟨response.arrivals, session.tick⟩
  let session := { session.assign connection fun held => { held with unread := reader.arrivals } with
    tick := reader.tick }
  match body with
  | .error e => (.error e, session)
  | .ok body =>
    if truncate then
      -- an open response may have come to its end all the same
      (.ok (body, reader.arrivals.isEmpty && world.isclosed session.tick), session.ticked)
    else (.ok (body, true), session)

/-- The port of a url, or its scheme's. -/
def effectivePort (url : Url) : Nat :=
  match url.port with
  | none | some 0 => if url.scheme = str "https" then 443 else 80
  | some port => port

/-- `SessionTransport.__call__`. What is written is the request's own and is not recorded. -/
def send (world : World) (request : Request) (timeout : Timeout) (maxBodySize : Int)
    (session : Session) : Except Exc (Nat × Bytes) × Session :=
  let session := { session with call := session.call + 1 }
  match assertValidTimeout timeout (str "http timeout") with
  | .error e => (.error e, session)
  | .ok () =>
    match assertValidMaxBodySize maxBodySize with
    | .error e => (.error e, session)
    | .ok () =>
      match splitUrl world.urllib request.fullUrl with
      | .error e => (.error e, session)
      | .ok url =>
        let key := (url.scheme, url.host, effectivePort url)
        let (now, session) := session.monotonic world
        let deadline := now + timeout.seconds
        match session.sendAndReceive world key deadline url.where_ with
        | (.error e, session) => (.error e, session)
        | (.ok (response, connection), session) =>
          match session.readBody world connection response maxBodySize url.where_ deadline with
          | (.error e, session) => (.error e, session.popClose key)
          | (.ok (body, readToTheEnd), session) =>
            if response.willClose then (.ok (response.status, body), session.popClose key)
            else if !readToTheEnd then (.ok (response.status, body), session.popClose key)
            else (.ok (response.status, body), session)

/-- `SessionTransport.close` -/
def close (session : Session) : Session :=
  let closed := session.connections.entries.foldl
    (fun session entry => session.closeConnection entry.2) session
  { closed with connections := ∅ }

end Session

/-! ### Runs -/

/-- What is done with a session. -/
inductive Operation
  | send (request : Request) (timeout : Timeout) (maxBodySize : Int)
  | close

def Session.step (world : World) (session : Session) : Operation → Session
  | .send request timeout maxBodySize => (session.send world request timeout maxBodySize).2
  | .close => session.close

/-- A session after some operations. -/
def Session.run (world : World) (operations : List Operation) : Session :=
  operations.foldl (Session.step world) Session.new

/-! ### The invariant -/

/-- The requests among some events, with what each raised. -/
def requests (events : List Event) : List (ConnectionId × Option Exc) :=
  events.filterMap fun event => match event with
    | .requested connection raised => some (connection, raised)
    | _ => none

/-- A later event writes nothing to a connection an earlier one found dead. -/
def Silent (earlier later : Event) : Prop :=
  ∀ connection raised, earlier = .probed connection true → later ≠ .requested connection raised

/-- The connections of a session, one of which may be in use: each pooled one is open, has nothing
unread, was opened for its key and is pooled nowhere else; the one in use is not pooled; every
other is closed. -/
structure Sound (pool : Pool) (made : List Connection) (trace : List Event)
    (inUse : Option ConnectionId) : Prop where
  pooled : ∀ key connection, pool.lookup key = some connection →
    Event.opened connection key ∈ trace ∧
      ∃ held, made[connection]? = some held ∧ held.closed = false ∧ held.unread = []
  apart : ∀ key other connection, pool.lookup key = some connection →
    pool.lookup other = some connection → key = other
  used : ∀ key connection, inUse = some connection → pool.lookup key ≠ some connection
  accounted : ∀ connection held, made[connection]? = some held → inUse ≠ some connection →
    held.closed = true ∨ ∃ key, pool.lookup key = some connection
  dead : ∀ connection, Event.probed connection true ∈ trace →
    ∃ held, made[connection]? = some held ∧ held.closed = true
  silent : trace.Pairwise Silent

theorem lookup_erase_eq_some {pool : Pool} {key other : Key} {connection : ConnectionId} :
    (pool.erase key).lookup other = some connection ↔
      other ≠ key ∧ pool.lookup other = some connection := by
  by_cases same : other = key
  · subst same
    simp [AList.lookup_erase]
  · rw [AList.lookup_erase_ne same]
    simp [same]

theorem erase_insert {pool : Pool} {key : Key} {connection : ConnectionId} :
    (pool.insert key connection).erase key = pool.erase key :=
  AList.ext (List.kerase_cons_eq rfl)

namespace Sound

variable {pool : Pool} {made : List Connection} {trace : List Event} {inUse : Option ConnectionId}

theorem new : Sound ∅ [] [] none where
  pooled _ _ here := by simp at here
  apart _ _ _ here := by simp at here
  used _ _ here := nomatch here
  accounted _ _ here := by simp at here
  dead _ here := by simp at here
  silent := .nil

/-- Taking a key's connection out of the pool puts it in use. -/
theorem take (sound : Sound pool made trace none) (key : Key) :
    Sound (pool.erase key) made trace (pool.lookup key) where
  pooled other connection here := sound.pooled other connection (lookup_erase_eq_some.mp here).2
  apart first second connection here there :=
    sound.apart first second connection (lookup_erase_eq_some.mp here).2
      (lookup_erase_eq_some.mp there).2
  used other connection taken here :=
    (lookup_erase_eq_some.mp here).1
      (sound.apart other key connection (lookup_erase_eq_some.mp here).2 taken)
  accounted connection held here spared := by
    rcases sound.accounted connection held here nofun with closed | ⟨other, pooled⟩
    · exact .inl closed
    · refine .inr ⟨other, lookup_erase_eq_some.mpr ⟨?_, pooled⟩⟩
      rintro rfl
      exact spared pooled
  dead := sound.dead
  silent := sound.silent

/-- An attribute that is set leaves an open connection open, and a pooled one with nothing
unread. -/
theorem assign (sound : Sound pool made trace inUse) {connection : ConnectionId}
    {change : Connection → Connection} (open_ : ∀ held, (change held).closed = held.closed)
    (idle : inUse = some connection ∨ ∀ held, (change held).unread = held.unread) :
    Sound pool (made.modify connection change) trace inUse where
  pooled key other here := by
    obtain ⟨opened, held, made_, notClosed, nothing⟩ := sound.pooled key other here
    refine ⟨opened, ?_⟩
    rw [List.getElem?_modify, made_]
    refine ⟨_, rfl, ?_⟩
    split_ifs with same
    · refine ⟨(open_ held).trans notClosed, ?_⟩
      rcases idle with used | kept
      · exact absurd here (sound.used key other (same ▸ used))
      · exact (kept held).trans nothing
    · exact ⟨notClosed, nothing⟩
  apart := sound.apart
  used := sound.used
  accounted other held here spared := by
    rw [List.getElem?_modify] at here
    obtain ⟨before, made_, rfl⟩ := Option.map_eq_some_iff.mp here
    rcases sound.accounted other before made_ spared with closed | pooled
    · left
      split_ifs
      · exact (open_ before).trans closed
      · exact closed
    · exact .inr pooled
  dead other probed := by
    obtain ⟨held, made_, closed⟩ := sound.dead other probed
    rw [List.getElem?_modify, made_]
    refine ⟨_, rfl, ?_⟩
    split_ifs
    · exact (open_ held).trans closed
    · exact closed
  silent := sound.silent

/-- Closing the connection in use leaves none in use. -/
theorem close {connection : ConnectionId} (sound : Sound pool made trace inUse)
    (only : inUse = none ∨ inUse = some connection)
    (idle : ∀ key, pool.lookup key ≠ some connection) :
    Sound pool (made.modify connection fun held => { held with closed := true }) trace none where
  pooled key other here := by
    have different : connection ≠ other := fun same => idle key (same ▸ here)
    obtain ⟨opened, held, made_, kept⟩ := sound.pooled key other here
    exact ⟨opened, held, (List.getElem?_modify_ne _ _ different).trans made_, kept⟩
  apart := sound.apart
  used _ _ here := nomatch here
  accounted other held here _ := by
    rw [List.getElem?_modify] at here
    obtain ⟨before, made_, rfl⟩ := Option.map_eq_some_iff.mp here
    split_ifs with same
    · exact .inl rfl
    · refine sound.accounted other before made_ fun used => same ?_
      rcases only with none_ | some_
      · rw [none_] at used
        cases used
      · exact Option.some.inj (some_.symm.trans used)
  dead other probed := by
    obtain ⟨held, made_, closed⟩ := sound.dead other probed
    rw [List.getElem?_modify, made_]
    refine ⟨_, rfl, ?_⟩
    split_ifs
    · rfl
    · exact closed
  silent := sound.silent

/-- Recording what was done to a connection: one found dead is closed by then, and one written to
is open. -/
theorem record (sound : Sound pool made trace inUse) {event : Event}
    (found : ∀ connection, event = .probed connection true →
      ∃ held, made[connection]? = some held ∧ held.closed = true)
    (written : ∀ connection raised, event = .requested connection raised →
      ∃ held, made[connection]? = some held ∧ held.closed = false) :
    Sound pool made (trace ++ [event]) inUse where
  pooled key connection here :=
    ⟨List.mem_append_left _ (sound.pooled key connection here).1,
      (sound.pooled key connection here).2⟩
  apart := sound.apart
  used := sound.used
  accounted := sound.accounted
  dead connection probed := by
    rcases List.mem_append.mp probed with before | last
    · exact sound.dead connection before
    · exact found connection (List.mem_singleton.mp last).symm
  silent := by
    refine List.pairwise_append.mpr ⟨sound.silent, List.pairwise_singleton _ _, ?_⟩
    intro earlier before later last connection raised probed requested
    obtain rfl := List.mem_singleton.mp last
    obtain ⟨held, made_, closed⟩ := sound.dead connection (probed ▸ before)
    obtain ⟨held', made', notClosed⟩ := written connection raised requested
    rw [made_] at made'
    cases made'
    rw [closed] at notClosed
    cases notClosed

/-- A connection just made is in use. -/
theorem opened (sound : Sound pool made trace none) (fresh : Connection) (key : Key) :
    Sound pool (made ++ [fresh]) (trace ++ [.opened made.length key]) (some made.length) where
  pooled other connection here := by
    obtain ⟨opened, held, made_, idle⟩ := sound.pooled other connection here
    refine ⟨List.mem_append_left _ opened, held, ?_, idle⟩
    rw [List.getElem?_append_left (List.getElem?_eq_some_iff.mp made_).1]
    exact made_
  apart := sound.apart
  used other connection fresh_ here := by
    cases fresh_
    obtain ⟨_, held, made_, _⟩ := sound.pooled other _ here
    exact absurd (List.getElem?_eq_some_iff.mp made_).1 (lt_irrefl _)
  accounted connection held here spared := by
    refine sound.accounted connection held ?_ nofun
    rcases Nat.lt_or_ge connection made.length with before | after
    · rwa [List.getElem?_append_left before] at here
    · rw [List.getElem?_append_right after] at here
      have last := (List.getElem?_eq_some_iff.mp here).1
      rw [List.length_singleton] at last
      have same : made.length = connection := by omega
      exact absurd (congrArg some same) spared
  dead connection probed := by
    rcases List.mem_append.mp probed with before | last
    · obtain ⟨held, made_, closed⟩ := sound.dead connection before
      refine ⟨held, ?_, closed⟩
      rw [List.getElem?_append_left (List.getElem?_eq_some_iff.mp made_).1]
      exact made_
    · cases List.mem_singleton.mp last
  silent := by
    refine List.pairwise_append.mpr ⟨sound.silent, List.pairwise_singleton _ _, ?_⟩
    intro earlier _ later last connection raised _ requested
    rw [List.mem_singleton.mp last] at requested
    cases requested

/-- The connection in use, open and with nothing unread, is one more pooled connection where its
key is pooled. -/
theorem settle {key : Key} {connection : ConnectionId} {held : Connection}
    (sound : Sound (pool.erase key) made trace (some connection))
    (pooled : pool.lookup key = some connection)
    (opened : Event.opened connection key ∈ trace) (here : made[connection]? = some held)
    (open_ : held.closed = false) (nothing : held.unread = []) : Sound pool made trace none where
  pooled other connection' there := by
    by_cases same : other = key
    · subst same
      cases pooled.symm.trans there
      exact ⟨opened, held, here, open_, nothing⟩
    · exact sound.pooled other connection' (lookup_erase_eq_some.mpr ⟨same, there⟩)
  apart first second connection' there elsewhere := by
    have idle (other : Key) (different : other ≠ key) : pool.lookup other ≠ some connection :=
      fun there => sound.used other connection rfl (lookup_erase_eq_some.mpr ⟨different, there⟩)
    by_cases same : first = key <;> by_cases same' : second = key
    · rw [same, same']
    · subst same
      cases pooled.symm.trans there
      exact absurd elsewhere (idle second same')
    · subst same'
      cases pooled.symm.trans elsewhere
      exact absurd there (idle first same)
    · exact sound.apart first second connection' (lookup_erase_eq_some.mpr ⟨same, there⟩)
        (lookup_erase_eq_some.mpr ⟨same', elsewhere⟩)
  used _ _ none_ := nomatch none_
  accounted connection' held' there _ := by
    by_cases same : connection = connection'
    · exact .inr ⟨key, same ▸ pooled⟩
    · rcases sound.accounted connection' held' there (by simpa using same) with closed | ⟨other, idle⟩
      · exact .inl closed
      · exact .inr ⟨other, (lookup_erase_eq_some.mp idle).2⟩
  dead := sound.dead
  silent := sound.silent

end Sound

/-! ### What each step of an exchange can do -/

/-- What a step did: events, and operations of the world, of the call being made. -/
structure Session.Extends (before after : Session) (events : List Event) : Prop where
  trace : after.trace = before.trace ++ events
  tick : before.tick ≤ after.tick
  call : after.call = before.call

theorem Session.Extends.trans {before between after : Session} {first last : List Event}
    (early : before.Extends between first) (late : between.Extends after last) :
    before.Extends after (first ++ last) where
  trace := by rw [late.trace, early.trace, List.append_assoc]
  tick := early.tick.trans late.tick
  call := late.call.trans early.call

/-- A connection is in use for a key: it is open, and the rest of the pool is sound. -/
structure InPlay (session : Session) (key : Key) (connection : ConnectionId) (held : Connection) :
    Prop where
  around : Sound (session.connections.erase key) session.made session.trace (some connection)
  opened : Event.opened connection key ∈ session.trace
  here : session.made[connection]? = some held
  open_ : held.closed = false

/-- A session between two calls. -/
def Session.Idle (session : Session) : Prop :=
  Sound session.connections session.made session.trace none

section Steps

variable {world : World} {key : Key} {deadline : ℚ} {where_ : Str} {session : Session}
  {connection : ConnectionId} {held : Connection}

theorem Session.Extends.ticked (session : Session) : session.Extends session.ticked [] :=
  ⟨(List.append_nil _).symm, Nat.le_succ _, rfl⟩

theorem Session.Extends.note (session : Session) (event : Event) :
    session.Extends (session.note event) [event] :=
  ⟨rfl, Nat.le_succ _, rfl⟩

theorem InPlay.ticked (inPlay : InPlay session key connection held) :
    InPlay session.ticked key connection held :=
  ⟨inPlay.around, inPlay.opened, inPlay.here, inPlay.open_⟩

theorem InPlay.assign (inPlay : InPlay session key connection held)
    (change : Connection → Connection) (open_ : ∀ held, (change held).closed = held.closed) :
    InPlay (session.assign connection change) key connection (change held) where
  around := inPlay.around.assign open_ (.inl rfl)
  opened := inPlay.opened
  here := by
    show (session.made.modify connection change)[connection]? = _
    rw [List.getElem?_modify_eq, inPlay.here]
    rfl
  open_ := (open_ held).trans inPlay.open_

/-- Writing to the connection in use writes to no dead one. -/
theorem InPlay.requested (inPlay : InPlay session key connection held) (raised : Option Exc) :
    InPlay (session.note (.requested connection raised)) key connection held where
  around := by
    refine inPlay.around.record (fun _ found => nomatch found) ?_
    rintro other _ ⟨⟩
    exact ⟨held, inPlay.here, inPlay.open_⟩
  opened := List.mem_append_left _ inPlay.opened
  here := inPlay.here
  open_ := inPlay.open_

/-- Closing the connection in use and dropping its key leaves a session between two calls. -/
theorem InPlay.drop (inPlay : InPlay session key connection held) :
    ((session.closeConnection connection).pop key).Idle :=
  inPlay.around.close (.inr rfl) fun other => inPlay.around.used other connection rfl

/-- A pooled connection in use over which nothing is unread is in use no more. -/
theorem InPlay.keep (inPlay : InPlay session key connection held)
    (pooled : session.connections.lookup key = some connection) (nothing : held.unread = []) :
    session.Idle :=
  inPlay.around.settle pooled inPlay.opened inPlay.here inPlay.open_ nothing

theorem timeLeft_cases (world : World) (deadline : ℚ) (where_ : Str) (session : Session) :
    (∃ e, session.timeLeft world deadline where_ = (.error e, session.ticked)) ∨
    ∃ remaining, session.timeLeft world deadline where_ = (.ok remaining, session.ticked) := by
  by_cases expired : deadline - world.clock session.tick ≤ 0
  · exact .inl ⟨_, if_pos expired⟩
  · exact .inr ⟨_, if_neg expired⟩

/-- A connect makes no connection, or one that is in use. -/
theorem connect_cases (world : World) (deadline : ℚ) (where_ : Str)
    (around : Sound (session.connections.erase key) session.made session.trace none) :
    (∃ e after, session.connect world key deadline where_ = (.error e, after) ∧
      session.Extends after [] ∧ after.connections = session.connections ∧
      after.made = session.made) ∨
    ∃ fresh after held, session.connect world key deadline where_ = (.ok fresh, after) ∧
      session.Extends after [.opened fresh key] ∧
      InPlay after key fresh held ∧ held.unread = [] := by
  unfold Session.connect
  rcases timeLeft_cases world deadline where_ session with ⟨e, expired⟩ | ⟨remaining, left⟩
  · rw [expired]
    exact .inl ⟨e, _, rfl, .ticked session, rfl, rfl⟩
  rw [left]
  dsimp only
  cases world.factory session.ticked.tick with
  | some e => exact .inl ⟨e, _, rfl, (Session.Extends.ticked session).trans (.ticked _), rfl, rfl⟩
  | none =>
    refine .inr ⟨_, _, ⟨remaining, deadline, false, [], 0⟩, rfl,
      ⟨rfl, Nat.le_add_right _ 2, rfl⟩, ⟨around.opened _ key, ?_, ?_, rfl⟩, rfl⟩
    · exact List.mem_append_right _ List.mem_cons_self
    · exact List.getElem?_concat_length

/-- What `request()` does to the connection in use. -/
theorem request_cases (world : World) (inPlay : InPlay session key connection held) :
    ∃ after, session.request world connection = (world.request session.tick, after) ∧
      session.Extends after [.requested connection (world.request session.tick)] ∧
      InPlay after key connection { held with asked := session.call } :=
  ⟨_, rfl, ⟨rfl, Nat.le_succ _, rfl⟩,
    (inPlay.assign (fun held => { held with asked := session.call })
      fun _ => rfl).requested _⟩

/-- Evicting a kept connection found dead. -/
theorem evict (idle : session.Idle) (pooled : session.connections.lookup key = some connection) :
    ((((session.note (.probed connection true)).closeConnection connection).pop key).Idle) := by
  have around := Sound.take idle key
  rw [pooled] at around
  obtain ⟨_, held, here, _⟩ := idle.pooled key connection pooled
  refine (around.close (.inr rfl) fun other => around.used other connection rfl).record ?_
    (fun _ _ written => nomatch written)
  rintro other ⟨⟩
  rw [List.getElem?_modify_eq, here]
  exact ⟨_, rfl, rfl⟩

/-- A kept connection the probe reports alive is in use. -/
theorem reuse (idle : session.Idle) (pooled : session.connections.lookup key = some connection) :
    (session.note (.probed connection false)).Idle ∧
      ∃ held, InPlay (session.note (.probed connection false)) key connection held ∧
        held.unread = [] := by
  have probed : (session.note (.probed connection false)).Idle :=
    Sound.record idle (fun _ found => nomatch found) (fun _ _ written => nomatch written)
  obtain ⟨opened, held, here, open_, nothing⟩ := idle.pooled key connection pooled
  have around := Sound.take probed key
  rw [show (session.note (.probed connection false)).connections.lookup key = some connection from
    pooled] at around
  exact ⟨probed, held, ⟨around, List.mem_append_left _ opened, here, open_⟩, nothing⟩

/-- The part before the `try` leaves the session between two calls, or a connection in use over
which nothing is unread; one that was kept was probed alive. It writes nothing. -/
theorem checkout_cases (world : World) (deadline : ℚ) (where_ : Str) (idle : session.Idle) :
    (∃ e after events, session.checkout world key deadline where_ = (.error e, after) ∧
      session.Extends after events ∧ requests events = [] ∧ after.Idle) ∨
    ∃ connection reused after events held,
      session.checkout world key deadline where_ = (.ok (connection, reused), after) ∧
      session.Extends after events ∧ requests events = [] ∧
      InPlay after key connection held ∧ held.unread = [] ∧
      (reused = true → session.connections.lookup key = some connection ∧
        Event.probed connection false ∈ events) := by
  unfold Session.checkout
  cases pooled : session.connections.lookup key with
  | none =>
    have around := Sound.take idle key
    rw [pooled] at around
    rcases connect_cases world deadline where_ around with ⟨e, after, failed, extends_, same, made⟩ |
      ⟨fresh, after, held, made, extends_, inPlay, nothing⟩
    · simp only [failed]
      refine .inl ⟨e, after, [], rfl, extends_, rfl, ?_⟩
      rw [Session.Idle, same, made, extends_.trace, List.append_nil]
      exact idle
    · simp only [made]
      exact .inr ⟨fresh, false, after, _, held, rfl, extends_, rfl, inPlay, nothing, nofun⟩
  | some kept =>
    simp only [Session.probe]
    cases world.probe session.tick with
    | error e => exact .inl ⟨e, _, [], rfl, .ticked session, rfl, idle⟩
    | ok dead =>
      cases dead with
      | true =>
        have evicted := evict idle pooled
        have found : session.Extends (((session.note (.probed kept true)).closeConnection kept).pop key)
            [.probed kept true] := ⟨rfl, Nat.le_succ _, rfl⟩
        have around := Sound.take evicted key
        rw [show (((session.note (.probed kept true)).closeConnection kept).pop key).connections.lookup
          key = none from AList.lookup_erase key _] at around
        rcases connect_cases world deadline where_ around with
          ⟨e, after, failed, extends_, same, made⟩ |
          ⟨fresh, after, held, made, extends_, inPlay, nothing⟩
        · simp only [failed]
          refine .inl ⟨e, after, _, rfl, found.trans extends_, rfl, ?_⟩
          rw [Session.Idle, same, made, extends_.trace, List.append_nil]
          exact evicted
        · simp only [made]
          exact .inr ⟨fresh, false, after, _, held, rfl, found.trans extends_, rfl, inPlay, nothing,
            nofun⟩
      | false =>
        obtain ⟨probed, held, inPlay, nothing⟩ := reuse idle pooled
        have alive := Session.Extends.note session (.probed kept false)
        simp only
        rcases timeLeft_cases world deadline where_ (session.note (.probed kept false)) with
          ⟨e, expired⟩ | ⟨remaining, left⟩
        · simp only [expired]
          exact .inl ⟨e, _, _, rfl, alive.trans (.ticked _), rfl, probed⟩
        · simp only [left]
          cases world.settimeout _ with
          | some e =>
            refine .inl ⟨e, _, [.probed kept false], rfl, ⟨rfl, Nat.le_add_right _ 3, rfl⟩, rfl, ?_⟩
            exact Sound.assign probed (fun _ => rfl) (.inr fun _ => rfl)
          | none =>
            exact .inr ⟨kept, true, _, [.probed kept false], _, rfl, ⟨rfl, Nat.le_add_right _ 3, rfl⟩,
              rfl, ((inPlay.ticked.assign (fun held => { held with timeout := remaining })
                fun _ => rfl).ticked.assign (fun held => { held with deadline := deadline })
                fun _ => rfl), nothing, fun _ => ⟨rfl, List.mem_cons_self⟩⟩

/-- The requests of one call: at most two, the second over a connection opened for it and only after
one kept, probed alive and whose write was found stale, and none after one that was written in
full. -/
structure WritesOnce (before : Session) (key : Key) (events : List Event) : Prop where
  atMostTwo : (requests events).length ≤ 2
  second : ∀ first second rest, requests events = first :: second :: rest →
    (before.connections.lookup key = some first.1 ∧ Event.opened first.1 key ∈ before.trace) ∧
    Event.opened second.1 key ∈ events ∧
    Event.probed first.1 false ∈ events ∧ ∃ e, first.2 = some e ∧ e.isStale = true
  last : ∀ earlier connection later, requests events = earlier ++ (connection, none) :: later →
    later = []

theorem WritesOnce.of_none {events : List Event} (silent : requests events = []) :
    WritesOnce session key events where
  atMostTwo := by simp [silent]
  second _ _ _ same := by simp [silent] at same
  last _ _ _ same := by simp [silent] at same

theorem WritesOnce.of_one {events : List Event} {only : ConnectionId × Option Exc}
    (one : requests events = [only]) : WritesOnce session key events where
  atMostTwo := by simp [one]
  second _ _ _ same := by simp [one] at same
  last earlier _ _ same := by
    rw [one] at same
    cases earlier with
    | nil => exact (List.cons.inj same).2.symm
    | cons _ earlier => simp at same

theorem WritesOnce.of_two {events : List Event} {stale : Exc} {again : ConnectionId × Option Exc}
    (two : requests events = [(connection, some stale), again]) (isStale : stale.isStale = true)
    (kept : session.connections.lookup key = some connection ∧
      Event.opened connection key ∈ session.trace) (fresh : Event.opened again.1 key ∈ events)
    (alive : Event.probed connection false ∈ events) : WritesOnce session key events where
  atMostTwo := by simp [two]
  second first second rest same := by
    rw [two] at same
    cases same
    exact ⟨kept, fresh, alive, stale, rfl, isStale⟩
  last earlier other later same := by
    rw [two] at same
    match earlier with
    | [] => cases same
    | [_] => exact (List.cons.inj (List.cons.inj same).2).2.symm
    | _ :: _ :: _ => simp at same

theorem requests_append (first last : List Event) :
    requests (first ++ last) = requests first ++ requests last :=
  List.filterMap_append

/-- The write leaves what `connection` names to be closed and its key dropped, where it raised,
and in use, where it did not. It wrote once, or a second time over a connection it opened after a
stale write over a kept one. -/
theorem write_cases (world : World) (deadline : ℚ) (where_ : Str)
    (inPlay : InPlay session key connection held) (nothing : held.unread = []) (reused : Bool) :
    ∃ raised last after events,
      session.write world key deadline where_ connection reused = (raised, last, after) ∧
      session.Extends after events ∧
      (∀ e, raised = some e → ((after.closeConnection last).pop key).Idle) ∧
      (raised = none → ∃ held, InPlay after key last held ∧ held.unread = [] ∧
        held.asked = session.call) ∧
      ((∃ raised, requests events = [(connection, raised)]) ∨
        ∃ stale again, stale.isStale = true ∧ reused = true ∧
          requests events = [(connection, some stale), again] ∧
          Event.opened again.1 key ∈ events) := by
  unfold Session.write
  obtain ⟨written, run, extends_, stillInPlay⟩ := request_cases world inPlay
  rw [run]
  cases outcome : world.request session.tick with
  | none =>
    rw [outcome] at extends_
    exact ⟨none, connection, written, _, rfl, extends_, nofun,
      fun _ => ⟨_, stillInPlay, nothing, rfl⟩, .inl ⟨_, rfl⟩⟩
  | some e =>
    rw [outcome] at extends_
    simp only
    by_cases again : (e.isStale && reused) = true
    · rw [if_pos again]
      obtain ⟨isStale, reused_⟩ := Bool.and_eq_true_iff.mp again
      have dropped := stillInPlay.drop
      rcases @connect_cases key (written.closeConnection connection) world deadline where_
          dropped with ⟨e', after, failed, connecting, same, made⟩ |
        ⟨fresh, after, heldFresh, made, connecting, freshInPlay, freshNothing⟩
      · simp only [failed]
        refine ⟨some e', connection, after, [.requested connection (some e)], rfl, ?_, fun _ _ => ?_,
          nofun, .inl ⟨some e, rfl⟩⟩
        · exact ⟨connecting.trace.trans (by rw [List.append_nil]; exact extends_.trace),
            extends_.tick.trans connecting.tick, connecting.call.trans extends_.call⟩
        · have trace : after.trace = written.trace :=
            connecting.trace.trans (List.append_nil _)
          show Sound (after.connections.erase key) (after.made.modify connection _) after.trace none
          rw [same, made, trace]
          exact dropped.close (.inl rfl) fun other =>
            stillInPlay.around.used other connection rfl
      · simp only [made]
        obtain ⟨rewritten, run', extends', againInPlay⟩ := request_cases world freshInPlay
        rw [run']
        have whole : session.Extends rewritten ([.requested connection (some e)] ++
            ([.opened fresh key] ++ [.requested fresh (world.request after.tick)])) :=
          extends_.trans (Session.Extends.trans ⟨connecting.trace, connecting.tick, connecting.call⟩
            extends')
        refine ⟨_, fresh, rewritten, _, rfl, whole, fun _ _ => againInPlay.drop,
          fun _ => ⟨_, againInPlay, freshNothing, ?_⟩, .inr ⟨e, _, isStale, reused_, rfl, ?_⟩⟩
        · exact connecting.call.trans extends_.call
        · simp
    · rw [if_neg again]
      exact ⟨some e, connection, written, _, rfl, extends_, fun _ _ => stillInPlay.drop, nofun,
        .inl ⟨_, rfl⟩⟩

/-- Over a connection with nothing unread, `getresponse()` answers the response to the request
last written over it. -/
theorem getresponse_cases (world : World) (inPlay : InPlay session key connection held)
    (nothing : held.unread = []) :
    (∃ e, session.getresponse world connection = (.error e, session.ticked)) ∨
    ∃ response after, session.getresponse world connection = (.ok response, after) ∧
      world.respond held.asked session.tick = .ok response ∧
      session.Extends after [] ∧ session.tick < after.tick ∧
      InPlay after key connection { held with unread := response.arrivals } := by
  simp only [Session.getresponse, inPlay.here, if_pos nothing]
  cases world.respond held.asked session.tick with
  | error e => exact .inl ⟨e, rfl⟩
  | ok response =>
    refine .inr ⟨response, _, rfl, rfl, ⟨(List.append_nil _).symm, Nat.le_succ _, rfl⟩,
      Nat.lt_succ_self _, ?_⟩
    exact inPlay.ticked.assign (fun held => { held with unread := response.arrivals })
      fun _ => rfl

/-- An exchange up to the status line leaves the session between two calls, or the connection the
response comes over in use and pooled. -/
theorem sendAndReceive_cases (world : World) (key : Key) (deadline : ℚ) (where_ : Str)
    (idle : session.Idle) :
    (∃ e after events, session.sendAndReceive world key deadline where_ = (.error e, after) ∧
      session.Extends after events ∧ WritesOnce session key events ∧ after.Idle) ∨
    ∃ response connection after events held tick,
      session.sendAndReceive world key deadline where_ = (.ok (response, connection), after) ∧
      session.Extends after events ∧ WritesOnce session key events ∧
      InPlay after key connection held ∧ held.unread = response.arrivals ∧
      after.connections.lookup key = some connection ∧
      world.respond session.call tick = .ok response ∧ session.tick ≤ tick ∧ tick < after.tick := by
  unfold Session.sendAndReceive
  rcases checkout_cases world deadline where_ idle with
    ⟨e, after, events, failed, extends_, silent, stillIdle⟩ |
    ⟨connection, reused, ready, looked, held, ran, extends_, silent, inPlay, nothing, kept⟩
  · rw [failed]
    exact .inl ⟨e, after, events, rfl, extends_, .of_none silent, stillIdle⟩
  rw [ran]
  obtain ⟨raised, last, written, writes, ran', extends', dropped, inUse, shape⟩ :=
    write_cases world deadline where_ inPlay nothing reused
  have once : WritesOnce session key (looked ++ writes) := by
    have all : requests (looked ++ writes) = requests writes := by
      rw [requests_append, silent, List.nil_append]
    rcases shape with ⟨raised, one⟩ | ⟨stale, again, isStale, reused_, two, fresh⟩
    · exact .of_one (all.trans one)
    · obtain ⟨pooled, alive⟩ := kept reused_
      exact .of_two (all.trans two) isStale ⟨pooled, (idle.pooled key connection pooled).1⟩
        (List.mem_append_right _ fresh) (List.mem_append_left _ alive)
  have both := extends_.trans extends'
  simp only [ran']
  cases raised with
  | some e => exact .inl ⟨e, _, _, rfl, ⟨both.trace, both.tick, both.call⟩, once, dropped e rfl⟩
  | none =>
    obtain ⟨sent, sentInPlay, sentNothing, asked⟩ := inUse rfl
    simp only
    rcases getresponse_cases world sentInPlay sentNothing with
      ⟨e, failed⟩ | ⟨response, after, answered, own, waited, later, received⟩
    · rw [failed]
      exact .inl ⟨e, _, _, rfl, ⟨both.trace, both.tick.trans (Nat.le_succ _), both.call⟩, once,
        sentInPlay.ticked.drop⟩
    · rw [answered]
      have all := both.trans waited
      rw [List.append_nil] at all
      refine .inr ⟨response, last, _, _, { sent with unread := response.arrivals }, written.tick, rfl,
        ⟨all.trace, all.tick, all.call⟩, once, ⟨?_, received.opened, received.here, received.open_⟩,
        rfl, AList.lookup_insert _, ?_, both.tick, later⟩
      · show Sound ((after.connections.insert key last).erase key) after.made after.trace (some last)
        rw [erase_insert]
        exact received.around
      · rw [← own, asked, extends_.call]

/-- Dropping the pooled connection in use. -/
theorem InPlay.popClose (inPlay : InPlay session key connection held)
    (pooled : session.connections.lookup key = some connection) : (session.popClose key).Idle := by
  rw [Session.popClose, pooled]
  exact inPlay.drop

theorem Session.popClose_tick (session : Session) (key : Key) :
    (session.popClose key).tick = session.tick := by
  unfold Session.popClose
  split <;> rfl

theorem Session.popClose_call (session : Session) (key : Key) :
    (session.popClose key).call = session.call := by
  unfold Session.popClose
  split <;> rfl

theorem Session.Extends.popClose (session : Session) (key : Key) :
    session.Extends (session.popClose key) [] := by
  unfold Session.popClose
  split <;> exact ⟨(List.append_nil _).symm, le_rfl, rfl⟩

/-- What a call answers of a response: the front of a failure's body, and the whole of any
other. -/
def answerBody (response : Response) : Bytes :=
  if clientError ≤ response.status then (contents response.arrivals).take maxErrorBodySize
  else contents response.arrivals

/-- Reading a body leaves the connection in use; a read that answers has what is kept of the
body, and one that says it came to the end left nothing unread. -/
theorem readBody_cases (world : World) (inPlay : InPlay session key connection held)
    (response : Response) (maxBodySize : Int) (where_ : Str) (deadline : ℚ) :
    ∃ outcome after held,
      session.readBody world connection response maxBodySize where_ deadline = (outcome, after) ∧
      after.connections = session.connections ∧ session.tick ≤ after.tick ∧
      after.call = session.call ∧ after.trace = session.trace ∧
      InPlay after key connection held ∧
      ∀ body ended, outcome = .ok (body, ended) → body = answerBody response ∧
        (ended = true → held.unread = []) := by
  have later := @readBounded_tick world.py world.clock response.contentLength
    (if clientError ≤ response.status then (maxErrorBodySize : Int) else maxBodySize) where_ deadline
    (decide (clientError ≤ response.status)) ⟨response.arrivals, session.tick⟩
  have still (rest : List Arrival) (tick : Nat) :
      InPlay { session.assign connection fun held => { held with unread := rest } with tick := tick }
        key connection { held with unread := rest } := by
    have set := inPlay.assign (fun held => { held with unread := rest }) fun _ => rfl
    exact ⟨set.around, set.opened, set.here, set.open_⟩
  unfold Session.readBody
  by_cases failure : clientError ≤ response.status
  · simp only [failure, decide_true, if_true] at later ⊢
    generalize ran : readBounded world.py world.clock response.contentLength maxErrorBodySize where_
      deadline true ⟨response.arrivals, session.tick⟩ = read at later ⊢
    obtain ⟨body, reader⟩ := read
    cases body with
    | error e => exact ⟨_, _, _, rfl, rfl, later, rfl, rfl, still reader.arrivals _, nofun⟩
    | ok body =>
      refine ⟨_, _, _, rfl, rfl, later.trans (Nat.le_succ _), rfl, rfl, still reader.arrivals _, ?_⟩
      rintro _ _ ⟨⟩
      rw [answerBody, if_pos failure]
      exact ⟨readBounded_truncate_ok ran, fun ended =>
        List.isEmpty_iff.mp (Bool.and_eq_true_iff.mp ended).1⟩
  · simp only [failure, decide_false, Bool.false_eq_true, if_false] at later ⊢
    generalize ran : readBounded world.py world.clock response.contentLength maxBodySize where_
      deadline false ⟨response.arrivals, session.tick⟩ = read at later ⊢
    obtain ⟨body, reader⟩ := read
    cases body with
    | error e => exact ⟨_, _, _, rfl, rfl, later, rfl, rfl, still reader.arrivals _, nofun⟩
    | ok body =>
      refine ⟨_, _, _, rfl, rfl, later, rfl, rfl, still reader.arrivals _, ?_⟩
      rintro _ _ ⟨⟩
      rw [answerBody, if_neg failure]
      exact ⟨(readBounded_ok ran).1, fun _ => (readBounded_ok ran).2⟩

/-- One call: it writes its request at most twice, leaves the session between two calls, and
answers the response to its own request. -/
theorem send_cases (world : World) (request : Request) (timeout : Timeout) (maxBodySize : Int)
    (idle : session.Idle) :
    ∃ outcome after events,
      session.send world request timeout maxBodySize = (outcome, after) ∧
      { session with call := session.call + 1 }.Extends after events ∧
      (∃ key, WritesOnce session key events) ∧ after.Idle ∧
      ∀ status body, outcome = .ok (status, body) → ∃ response tick,
        world.respond after.call tick = .ok response ∧ session.tick ≤ tick ∧ tick < after.tick ∧
        status = response.status ∧ body = answerBody response := by
  have unchanged : Session.Extends { session with call := session.call + 1 }
      { session with call := session.call + 1 } [] := ⟨(List.append_nil _).symm, le_rfl, rfl⟩
  unfold Session.send
  dsimp only
  cases assertValidTimeout timeout (str "http timeout") with
  | error e => exact ⟨_, _, _, rfl, unchanged, ⟨default, .of_none rfl⟩, idle, nofun⟩
  | ok _ =>
  cases assertValidMaxBodySize maxBodySize with
  | error e => exact ⟨_, _, _, rfl, unchanged, ⟨default, .of_none rfl⟩, idle, nofun⟩
  | ok _ =>
  cases splitUrl world.urllib request.fullUrl with
  | error e => exact ⟨_, _, _, rfl, unchanged, ⟨default, .of_none rfl⟩, idle, nofun⟩
  | ok url =>
  simp only [Session.monotonic]
  generalize world.clock session.tick + timeout.seconds = deadline
  have started : Session.Idle (Session.ticked { session with call := session.call + 1 }) := idle
  rcases sendAndReceive_cases world (url.scheme, url.host, Session.effectivePort url) deadline
      url.where_ started with
    ⟨e, after, events, failed, extends_, once, stillIdle⟩ |
    ⟨response, connection, received, events, held, tick, ran, extends_, once, inPlay, _, pooled, own,
      early, late⟩
  · simp only [failed]
    exact ⟨_, _, events, rfl, ⟨extends_.trace, (Nat.le_succ _).trans extends_.tick, extends_.call⟩,
      ⟨_, once.atMostTwo, once.second, once.last⟩, stillIdle, nofun⟩
  simp only [ran]
  obtain ⟨outcome, after, heldAfter, read, samePool, later, sameCall, sameTrace, stillInPlay,
    answered⟩ := readBody_cases world inPlay response maxBodySize url.where_ deadline
  have whole : Session.Extends { session with call := session.call + 1 } after events :=
    ⟨sameTrace.trans extends_.trace, (Nat.le_succ _).trans (extends_.tick.trans later),
      sameCall.trans extends_.call⟩
  have wholeClosed (key : Key) :
      Session.Extends { session with call := session.call + 1 } (after.popClose key) events := by
    have both := whole.trans (.popClose after key)
    rwa [List.append_nil] at both
  have writesOnce : ∃ key, WritesOnce session key events :=
    ⟨_, once.atMostTwo, once.second, once.last⟩
  have stillPooled := pooled
  rw [← samePool] at stillPooled
  have closed := stillInPlay.popClose stillPooled
  simp only [read]
  cases outcome with
  | error e => exact ⟨_, _, events, rfl, wholeClosed _, writesOnce, closed, nofun⟩
  | ok answer =>
    obtain ⟨body, ended⟩ := answer
    obtain ⟨same, nothing⟩ := answered body ended rfl
    have answer (final : Session) (kept : final.tick = after.tick) (same_ : final.call = after.call)
        (status : Nat) (body' : Bytes)
        (returned : (.ok (response.status, body) : Except Exc (Nat × Bytes)) = .ok (status, body')) :
        ∃ response tick, world.respond final.call tick = .ok response ∧ session.tick ≤ tick ∧
          tick < final.tick ∧ status = response.status ∧ body' = answerBody response := by
      cases returned
      refine ⟨response, tick, ?_, (Nat.le_succ _).trans early, kept ▸ late.trans_le later, rfl, same⟩
      rw [same_, whole.call]
      exact own
    dsimp only
    split_ifs with willClose cut
    · exact ⟨_, _, events, rfl, wholeClosed _, writesOnce, closed,
        answer _ (Session.popClose_tick _ _) (Session.popClose_call _ _)⟩
    · exact ⟨_, _, events, rfl, wholeClosed _, writesOnce, closed,
        answer _ (Session.popClose_tick _ _) (Session.popClose_call _ _)⟩
    · refine ⟨_, _, events, rfl, whole, writesOnce, ?_, answer _ rfl rfl⟩
      exact stillInPlay.keep stillPooled (nothing (by simpa using cut))

end Steps

/-! ### Closing -/

/-- Closing connections one by one closes each of them and no other. -/
theorem closeEach_made (entries : List ((_ : Key) × ConnectionId)) (session : Session)
    (connection : ConnectionId) :
    (entries.foldl (fun session entry => session.closeConnection entry.2) session).made[connection]? =
      session.made[connection]?.map fun held =>
        if connection ∈ entries.map Sigma.snd then { held with closed := true } else held := by
  induction entries generalizing session with
  | nil => simp
  | cons entry rest inductionHypothesis =>
    rw [List.foldl_cons, inductionHypothesis, Session.closeConnection, Session.assign,
      List.getElem?_modify, Option.map_eq_map, Option.map_map]
    congr 1
    funext held
    obtain ⟨key, number⟩ := entry
    by_cases later : connection ∈ rest.map Sigma.snd
    · by_cases here : number = connection <;> simp [here, later]
    · by_cases here : number = connection
      · simp [here, later]
      · simp [here, Ne.symm here, later]

theorem closeEach_trace (entries : List ((_ : Key) × ConnectionId)) (session : Session) :
    (entries.foldl (fun session entry => session.closeConnection entry.2) session).trace =
      session.trace := by
  induction entries generalizing session with
  | nil => rfl
  | cons entry rest inductionHypothesis => exact inductionHypothesis _

theorem close_idle {session : Session} (idle : session.Idle) : session.close.Idle where
  pooled _ _ here := by simp [Session.close] at here
  apart _ _ _ here := by simp [Session.close] at here
  used _ _ none_ := nomatch none_
  accounted connection held here _ := by
    left
    rw [Session.close, closeEach_made] at here
    obtain ⟨before, made, rfl⟩ := Option.map_eq_some_iff.mp here
    split_ifs with listed
    · rfl
    · rcases idle.accounted connection before made nofun with closed | ⟨key, pooled⟩
      · exact closed
      · have entry : (⟨key, connection⟩ : (_ : Key) × ConnectionId) ∈ session.connections.entries :=
          AList.mem_lookup_iff.mp pooled
        exact absurd (List.mem_map_of_mem entry) listed
  dead connection probed := by
    rw [Session.close, closeEach_trace] at probed
    obtain ⟨held, made, closed⟩ := idle.dead connection probed
    rw [Session.close, closeEach_made, made]
    refine ⟨_, rfl, ?_⟩
    split_ifs
    · rfl
    · exact closed
  silent := by
    rw [Session.close, closeEach_trace]
    exact idle.silent

/-! ### Runs -/

theorem step_idle {world : World} {session : Session} (idle : session.Idle) (operation : Operation) :
    (session.step world operation).Idle := by
  cases operation with
  | close => exact close_idle idle
  | send request timeout maxBodySize =>
    obtain ⟨outcome, after, events, ran, _, _, stillIdle, _⟩ :=
      send_cases world request timeout maxBodySize idle
    rw [Session.step, ran]
    exact stillIdle

/-- Between any two operations of a run the session is sound. -/
theorem run_idle (world : World) (operations : List Operation) :
    (Session.run world operations).Idle := by
  unfold Session.run
  have start : Session.new.Idle := Sound.new
  generalize Session.new = session at start
  induction operations generalizing session with
  | nil => exact start
  | cons operation rest inductionHypothesis => exact inductionHypothesis _ (step_idle start operation)

/-- Whatever the connections did before and do during a call, the call writes its request at most
twice; the second time only after a connection kept from an earlier call, probed alive, raised one
of the stale errors from its write; never after a write that returned; and over a whole run
nothing is written to a connection found dead. -/
theorem send_writesOnce (world : World) (operations : List Operation) (request : Request)
    (timeout : Timeout) (maxBodySize : Int) :
    ∃ events,
      ((Session.run world operations).send world request timeout maxBodySize).2.trace =
        (Session.run world operations).trace ++ events ∧
      (requests events).length ≤ 2 ∧
      (∀ first second rest, requests events = first :: second :: rest →
        (∃ key, (Session.run world operations).connections.lookup key = some first.1 ∧
          Event.opened first.1 key ∈ (Session.run world operations).trace) ∧
        Event.probed first.1 false ∈ events ∧ ∃ e, first.2 = some e ∧ e.isStale = true) ∧
      (∀ earlier connection later, requests events = earlier ++ (connection, none) :: later →
        later = []) ∧
      ((Session.run world operations).trace ++ events).Pairwise fun earlier later =>
        ∀ connection raised, earlier = .probed connection true →
          later ≠ .requested connection raised := by
  obtain ⟨outcome, after, events, ran, extends_, ⟨key, once⟩, idle, _⟩ :=
    send_cases world request timeout maxBodySize (run_idle world operations)
  rw [ran]
  refine ⟨events, extends_.trace, once.atMostTwo, fun first second rest two => ?_, once.last, ?_⟩
  · obtain ⟨kept, _, stale⟩ := once.second first second rest two
    exact ⟨⟨key, kept⟩, stale⟩
  have silent := idle.silent
  rwa [extends_.trace] at silent

/-- After every operation of a run the pool has each key once, with a connection that is open and
has nothing unread and that no other key has; every other connection the factory made is closed;
and what a call from there answers is the response to that call's own request. -/
theorem run_pool (world : World) (operations : List Operation) :
    (Session.run world operations).connections.keys.Nodup ∧
    (∀ key connection, (Session.run world operations).connections.lookup key = some connection →
      (∃ held, (Session.run world operations).made[connection]? = some held ∧
        held.closed = false ∧ held.unread = []) ∧
      ∀ other, (Session.run world operations).connections.lookup other = some connection →
        other = key) ∧
    (∀ connection held, (Session.run world operations).made[connection]? = some held →
      held.closed = true ∨
        ∃ key, (Session.run world operations).connections.lookup key = some connection) ∧
    ∀ request timeout maxBodySize status body after,
      (Session.run world operations).send world request timeout maxBodySize =
        (.ok (status, body), after) →
      ∃ response tick, world.respond after.call tick = .ok response ∧
        (Session.run world operations).tick ≤ tick ∧ tick < after.tick ∧
        status = response.status ∧
        body = if clientError ≤ response.status then
            (contents response.arrivals).take maxErrorBodySize
          else contents response.arrivals := by
  have idle := run_idle world operations
  refine ⟨AList.keys_nodup _, fun key connection here => ⟨(idle.pooled key connection here).2,
    fun other there => idle.apart other key connection there here⟩,
    fun connection held here => idle.accounted connection held here nofun, ?_⟩
  intro request timeout maxBodySize status body after returned
  obtain ⟨outcome, final, events, ran, _, _, _, answered⟩ :=
    send_cases world request timeout maxBodySize idle
  rw [returned] at ran
  cases ran
  exact answered status body rfl

end BitcoinCoreRpc
