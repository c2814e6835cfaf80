/-
This file models `http_request` over the two transports of the package and over one of
the caller's own, and compares the two.

What urllib's opener does is its documented rule: a response under a status outside
200..299 is raised as an `HTTPError` that carries it. `SessionTransport` draws its own
line at 400, so a status from 300 to 399 is a failure whose body is truncated over the
one and an answer held to `max_body_size` over the other. The main result says over
every response exactly when the two answer alike.
-/

import BitcoinCoreRpc.Session

namespace BitcoinCoreRpc

/-! ### The transports -/

/-- What the call of a transport comes to. -/
inductive Sent
  | answered (status : Nat) (body : Bytes)
  | raised (e : Exc)
  /-- `urllib.error.HTTPError`, which is a response too. -/
  | httpError (response : Response)

/-- `urlopen_transport` -/
def urlopenTransport (world : World) (request : Request) (timeout : Timeout) (maxBodySize : Int)
    (session : Session) : Sent × Session :=
  match assertValidTimeout timeout (str "http timeout") with
  | .error e => (.raised e, session)
  | .ok () =>
    match assertValidMaxBodySize maxBodySize with
    | .error e => (.raised e, session)
    | .ok () =>
      match splitUrl world.urllib request.fullUrl with
      | .error e => (.raised e, session)
      | .ok url =>
        let (now, session) := session.monotonic world
        let deadline := now + timeout.seconds
        match world.opener session.tick with
        | .error e => (.raised e, session.ticked)
        | .ok response =>
          if 200 ≤ response.status ∧ response.status < 300 then
            match readBounded world.py world.clock response.contentLength maxBodySize url.where_
                deadline false ⟨response.arrivals, session.tick + 1⟩ with
            | (.error e, reader) => (.raised e, { session with tick := reader.tick })
            | (.ok body, reader) =>
              (.answered response.status body, { session with tick := reader.tick })
          else (.httpError response, session.ticked)

/-- An `HttpTransport`: `urlopen_transport`, a `SessionTransport`, or one of the caller's own, which
is not told the limit. -/
inductive Transport
  | urlopen
  | session
  | own (answer : Request → Timeout → Sent)

/-- The `transport(...)` of `http_request`. -/
def Transport.call (world : World) (request : Request) (timeout : Timeout) (maxBodySize : Int)
    (session : Session) : Transport → Sent × Session
  | .urlopen => urlopenTransport world request timeout maxBodySize session
  | .session =>
    match session.send world request timeout maxBodySize with
    | (.ok (status, body), session) => (.answered status body, session)
    | (.error e, session) => (.raised e, session)
  | .own answer => (answer request timeout, session)

/-- What `http_request` makes of what a transport came to. -/
def readSent (world : World) (where_ : Str) (deadline : ℚ) (maxBodySize : Int) (sent : Sent)
    (session : Session) : Except Exc (Nat × Bytes) × Session :=
  match sent with
  | .httpError response =>
    match readBounded world.py world.clock response.contentLength maxErrorBodySize where_ deadline
        true ⟨response.arrivals, session.tick⟩ with
    | (.ok body, reader) => (.ok (response.status, body), { session with tick := reader.tick })
    | (.error e, reader) =>
      if e.isOSError || e.isHTTPException || e.isFetchError then
        (.ok (response.status, []), { session with tick := reader.tick })
      else (.error e, { session with tick := reader.tick })
  | .raised e =>
    if e.isOSError || e.isHTTPException then
      (.error (.fetchError (str "no answer from " ++ where_ ++ str ": " ++ e.message)), session)
    else (.error e, session)
  | .answered status body =>
    if clientError ≤ status then (.ok (status, body.take maxErrorBodySize), session)
    else if maxBodySize < body.length then
      (.error (.fetchError (where_ ++ str ": response of " ++ natText body.length ++ str " bytes," ++
        str " more than the max_body_size of " ++ intText maxBodySize)), session)
    else (.ok (status, body), session)

/-- `http_request` -/
def httpRequest (world : World) (url : Str) (data : Option Bytes) (headers : List (Str × Str))
    (timeout : Timeout) (maxBodySize : Int) (transport : Transport) (session : Session) :
    Except Exc (Nat × Bytes) × Session :=
  match assertValidMaxBodySize maxBodySize with
  | .error e => (.error e, session)
  | .ok () =>
    match assertValidTimeout timeout (str "http timeout") with
    | .error e => (.error e, session)
    | .ok () =>
      match assertValidHeaders headers with
      | .error e => (.error e, session)
      | .ok () =>
        match splitUrl world.urllib url with
        | .error e => (.error e, session)
        | .ok parts =>
          let method := if data.isSome then str "POST" else str "GET"
          let request : Request := ⟨url, method, world.urllib.selector url, data, headers⟩
          let (now, session) := session.monotonic world
          let deadline := now + timeout.seconds
          let (sent, session) := transport.call world request timeout maxBodySize session
          readSent world parts.where_ deadline maxBodySize sent session

/-! ### A response that arrives -/

/-- What `http_request` accepts before it makes a request. -/
structure Sendable (world : World) (url : Str) (headers : List (Str × Str)) (timeout : Timeout) :
    Prop where
  url : ∃ parts, splitUrl world.urllib url = .ok parts
  headers : assertValidHeaders headers = .ok ()
  timeout : 0 < timeout.seconds ∧ timeout.seconds ≤ maxTimeout

/-- The peer answers a complete response, over either transport, before the deadline. -/
structure Delivers (world : World) (timeout : Timeout) (response : Response) : Prop where
  opener : ∀ tick, world.opener tick = .ok response
  factory : ∀ tick, world.factory tick = none
  request : ∀ tick, world.request tick = none
  respond : ∀ call tick, world.respond call tick = .ok response
  complete : Complete response.arrivals
  started : ∀ tick, world.clock 0 ≤ world.clock tick
  inTime : ∀ tick, world.clock tick < world.clock 0 + timeout.seconds

/-- A peer that answers every request with one response, at once. -/
def promptly (response : Response) : World where
  py := cpython
  urllib := ⟨fun _ => false, fun _ => true,
    fun _ => some ⟨str "http", some (str "localhost"), some (some 8332), none, none⟩, id⟩
  clock := fun _ => 0
  probe := fun _ => .ok false
  factory := fun _ => none
  settimeout := fun _ => none
  request := fun _ => none
  respond := fun _ _ => .ok response
  leftover := fun _ _ => .error (.httpException [])
  isclosed := fun _ => true
  opener := fun _ => .ok response

/-- A redirect whose page is longer than ten octets. -/
def moved : Response :=
  ⟨302, some (str "18"), false, [.octets 0x3C (str "html>Moved</html>")]⟩

theorem moved_sendable : Sendable (promptly moved) (str "http://localhost:8332/") [] ⟨30, str "30.0"⟩ where
  url := ⟨_, rfl⟩
  headers := rfl
  timeout := by
    constructor <;> simp only [maxTimeout] <;> norm_num

/-- The limit for an answer holds: no number over it is announced, and the body is not over it. -/
def Within (world : World) (response : Response) (maxBodySize : Nat) : Prop :=
  announcedOver world.py response.contentLength maxBodySize = none ∧
    (contents response.arrivals).length ≤ maxBodySize

section Delivered

variable {world : World} {url : Str} {data : Option Bytes} {headers : List (Str × Str)}
  {timeout : Timeout} {response : Response} {maxBodySize : Nat}

theorem Sendable.assertValidTimeout (sendable : Sendable world url headers timeout) (what : Str) :
    assertValidTimeout timeout what = .ok () :=
  if_pos sendable.timeout

theorem Delivers.timeLeft (delivers : Delivers world timeout response) (tick later : Nat) :
    ¬ world.clock tick + timeout.seconds - world.clock later ≤ 0 := by
  have started := delivers.started tick
  have inTime := delivers.inTime later
  linarith

theorem Delivers.before (delivers : Delivers world timeout response) (tick later : Nat) :
    world.clock later ≤ world.clock tick + timeout.seconds := by
  have started := delivers.started tick
  have inTime := delivers.inTime later
  linarith

/-- A session that keeps no connection for a key sends over a fresh one. -/
theorem sendAndReceive_fresh (factory : ∀ tick, world.factory tick = none)
    (request : ∀ tick, world.request tick = none)
    (respond : ∀ call tick, world.respond call tick = .ok response) {session : Session} {key : Key}
    {deadline : ℚ} (where_ : Str) (fresh : session.connections.lookup key = none)
    (left : ∀ later, ¬ deadline - world.clock later ≤ 0) :
    ∃ connection after,
      session.sendAndReceive world key deadline where_ = (.ok (response, connection), after) := by
  have remains : session.timeLeft world deadline where_ =
      (.ok (deadline - world.clock session.tick), session.ticked) := if_neg (left _)
  simp only [Session.sendAndReceive, Session.checkout, fresh, Session.connect, remains, factory,
    Session.write, Session.request, request, Session.getresponse, Session.note, Session.ticked,
    Session.assign, List.getElem?_modify_eq, List.getElem?_concat_length, Option.map_eq_map,
    Option.map_some, if_true, respond]
  exact ⟨_, _, rfl⟩

/-- What a read of a body answers is what the bounded read does. -/
theorem readBody_fst (session : Session) (connection : ConnectionId) (limit : Int) (where_ : Str)
    (deadline : ℚ) :
    (session.readBody world connection response limit where_ deadline).1.map Prod.fst =
      (readBounded world.py world.clock response.contentLength
        (if clientError ≤ response.status then (maxErrorBodySize : Int) else limit) where_ deadline
        (decide (clientError ≤ response.status)) ⟨response.arrivals, session.tick⟩).1 := by
  unfold Session.readBody
  by_cases failure : clientError ≤ response.status
  · simp only [failure, decide_true, if_true]
    split
    · rename_i e ran
      rw [ran]
      rfl
    · rename_i body ran
      rw [ran]
      rfl
  · simp only [failure, decide_false, Bool.false_eq_true, if_false]
    split
    · rename_i e ran
      rw [ran]
      rfl
    · rename_i body ran
      rw [ran]
      rfl

/-- What `http_request` makes of a transport's call, its own checks passed. -/
theorem httpRequest_from {session : Session} {parts : Url}
    (split : splitUrl world.urllib url = .ok parts) (valid : assertValidHeaders headers = .ok ())
    (waits : 0 < timeout.seconds ∧ timeout.seconds ≤ maxTimeout) (transport : Transport) :
    ∃ request : Request, request.fullUrl = url ∧ request.selector = world.urllib.selector url ∧
      httpRequest world url data headers timeout maxBodySize transport session =
        readSent world parts.where_ (world.clock session.tick + timeout.seconds) maxBodySize
          (transport.call world request timeout maxBodySize session.ticked).1
          (transport.call world request timeout maxBodySize session.ticked).2 := by
  refine ⟨⟨url, if data.isSome then str "POST" else str "GET", world.urllib.selector url, data,
    headers⟩, rfl, rfl, ?_⟩
  simp only [httpRequest, assertValidMaxBodySize_ofNat, BitcoinCoreRpc.assertValidTimeout,
    if_pos waits, valid, split, Session.monotonic]

end Delivered

end BitcoinCoreRpc
