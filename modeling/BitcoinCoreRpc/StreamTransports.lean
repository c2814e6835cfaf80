/-
This file models `call_stream` itself: the request it builds, the exchange of `_post_stream`
whose reply is read as it arrives, each read under the deadline, and over any other
transport the body that `http_request` read whole.

How a reply is cut into reads is nothing a walk sees: the same body cut otherwise is
answered the same, or refused both times. So the two ways of reading one response come to
one answer, whatever the session was used for before, but where a transport that holds the
body refuses it for its size.
-/

import BitcoinCoreRpc.Call
import BitcoinCoreRpc.PlannedCall
import BitcoinCoreRpc.Node
import BitcoinCoreRpc.Reuse

namespace BitcoinCoreRpc

open JsonText Steps

/-! ### The reads of a reply -/

/-- Octets, as reads of `_READ_CHUNK` at most take them. -/
def pieces : Nat → Bytes → List Arrival
  | _, [] => []
  | 0, first :: more => [.octets first more]
  | fuel + 1, first :: more =>
    .octets first (more.take (readChunk - 1)) :: pieces fuel (more.drop (readChunk - 1))

/-- What a read of `_stream_reader` makes of an exception. -/
def noAnswer (where_ : Str) (e : Exc) : Exc :=
  if e.isOSError || e.isHTTPException then
    .fetchError (str "no answer from " ++ where_ ++ str ": " ++ e.message)
  else e

/-- What the reads of `_stream_reader` come to, the clock being read before each. -/
def readings (clock : Nat → ℚ) (where_ : Str) (deadline : ℚ) : Nat → List Arrival → List Arrival
  | tick, [] => if deadline < clock tick then [.failure (stillArriving where_)] else []
  | tick, arrival :: rest =>
    if deadline < clock tick then [.failure (stillArriving where_)]
    else
      (match arrival with
        | .octets first more => .octets first more
        | .failure e => .failure (noAnswer where_ e)) :: readings clock where_ deadline (tick + 1) rest

/-- What arrives, as it is read. -/
def readable : List Arrival → List Arrival
  | [] => []
  | .failure e :: rest => .failure e :: readable rest
  | .octets first more :: rest => pieces (more.length + 1) (first :: more) ++ readable rest

/-- `BytesIO(payload).read` -/
def inMemory : Bytes → List Arrival
  | [] => []
  | first :: more => [.octets first more]

/-! ### The call -/

/-- `_post_stream`: the status, and what the reads of the reply come to. -/
def streamedPost (lib : Urlparse) (world : World) (url : Str) (data : Bytes)
    (headers : List (Str × Str)) (timeout : Timeout) (session : Session) :
    Except Exc (Nat × List Arrival) := do
  let posted ← postStream lib url data headers timeout
  let deadline := world.clock session.tick + timeout.seconds
  match world.factory (session.tick + 1) with
  | some e => .error e
  | none =>
    match world.request (session.tick + 2) with
    | some e => .error (noAnswer posted.where_ e)
    | none =>
      match world.respond session.call (session.tick + 3) with
      | .error e => .error (noAnswer posted.where_ e)
      | .ok response => .ok (response.status,
          readings world.clock posted.where_ deadline (session.tick + 4) (readable response.arrivals))

section Call

variable {σ : Type} (lib : Urlparse) (world : World) (heap : Heap) (frames : Nat)
  (client : RpcClient) (cookie : CookieFile) (requestId : Str) (method params : Ref) (plan : Plan σ)
  (start : σ) (requestTimeout : Option Timeout) (maxBodySize : Int) (session : Session)

/-- What `call_stream` answers, its walk a plan. -/
def RpcClient.callStream : Except Exc (Json ⊕ σ) :=
  match client.request world.py heap frames requestId method params requestTimeout with
  | .error e => .error e
  | .ok (name, body, timeout) =>
    match assertValidMaxBodySize maxBodySize with
    | .error e => .error e
    | .ok () =>
      match client.authHeader cookie with
      | .error e => .error e
      | .ok authorization =>
        let where_ := name ++ str " at " ++ client.url
        let streamed := streamedResult world.py where_ (plan.walk world.py where_ start) maxBodySize
          requestId
        match client.transport with
        | .urlopen =>
          match streamedPost lib world client.url body (headers authorization) timeout session with
          | .error e => .error e
          | .ok (status, source) => streamed status source
        | transport =>
          match (httpRequest world client.url (some body) (headers authorization) timeout maxBodySize
            transport session).1 with
          | .error e => .error e
          | .ok (status, payload) => streamed status (inMemory payload)

end Call

/-! ### How a reply is cut -/

/-- One outcome, or a `FetchError` both times. -/
def SameOrRefused {α : Type} (first second : Except Exc α) : Prop :=
  first = second ∨ IsFetchError first ∧ IsFetchError second

section Cuts

variable {σ : Type} {py : Interpreter} {where_ requestId : Str} {plan : Plan σ} {start : σ}
  {maxBodySize status : Nat} {source source' : List Arrival}

/-- A body read in other pieces is answered the same, or refused both times. -/
theorem streamedPlan_cut (deep : maxStreamDepth ≤ py.nesting) (limits : plan.Limits (0 ≤ ·))
    (complete : Complete source) (complete' : Complete source')
    (front : (contents source).take maxErrorBodySize = (contents source').take maxErrorBodySize)
    (whole : status = 200 → contents source = contents source') :
    SameOrRefused
      (streamedResult py where_ (plan.walk py where_ start) maxBodySize requestId status source)
      (streamedResult py where_ (plan.walk py where_ start) maxBodySize requestId status source') := by
  by_cases failed : status ≠ 200
  · left
    unfold streamedResult
    rw [if_pos failed, if_pos failed, failureBody_of_complete complete,
      failureBody_of_complete complete', front]
  obtain rfl := not_not.mp failed
  have digests := plan.digests py where_ start
  by_cases read : ∃ final, Received py maxBodySize (fun value final => plan.Takes py value start final)
      (contents source) final
  · obtain ⟨final, received⟩ := read
    left
    rw [streamedResult_of_answers digests.walkAnswers complete received,
      streamedResult_of_answers digests.walkAnswers complete' (whole rfl ▸ received)]
  · right
    have refused {pieces : List Arrival} (cut : Complete pieces)
        (same : contents source = contents pieces) : IsFetchError (streamedResult py where_
          (plan.walk py where_ start) maxBodySize requestId 200 pieces) :=
      streamedResult_of_unread digests.walkReads (plan.proper deep limits start) (Int.natCast_nonneg _)
        deep cut (same ▸ not_exists.mp read)
    exact ⟨refused complete rfl, refused complete' (whole rfl)⟩

end Cuts

/-! ### What the reads come to -/

theorem contents_append {first second : List Arrival} (complete : Complete first) :
    contents (first ++ second) = contents first ++ contents second := by
  induction first with
  | nil => rfl
  | cons arrival rest inductionHypothesis =>
    have rest_ := inductionHypothesis fun arrival member =>
      complete arrival (List.mem_cons_of_mem _ member)
    cases arrival with
    | octets first more => simp only [List.cons_append, contents, rest_, List.append_assoc]
    | failure e => exact absurd rfl (complete _ List.mem_cons_self e)

theorem complete_append {first second : List Arrival} (complete : Complete first)
    (complete' : Complete second) : Complete (first ++ second) := fun arrival member =>
  (List.mem_append.mp member).elim (complete arrival) (complete' arrival)

theorem complete_pieces (fuel : Nat) (octets : Bytes) : Complete (pieces fuel octets) := by
  induction fuel, octets using pieces.induct with
  | case1 fuel =>
    rw [pieces]
    exact List.forall_mem_nil _
  | case2 first more => exact List.forall_mem_singleton.mpr fun e => nofun
  | case3 fuel first more inductionHypothesis =>
    exact List.forall_mem_cons.mpr ⟨fun e => nofun, inductionHypothesis⟩

theorem contents_pieces {fuel : Nat} {octets : Bytes} (enough : octets.length ≤ fuel) :
    contents (pieces fuel octets) = octets := by
  induction fuel, octets using pieces.induct with
  | case1 fuel => rw [pieces, contents]
  | case2 first more => cases enough
  | case3 fuel first more inductionHypothesis =>
    have shorter : (more.drop (readChunk - 1)).length ≤ fuel := by
      simp only [List.length_cons, List.length_drop] at enough ⊢
      omega
    rw [pieces, contents, inductionHypothesis shorter, List.cons_append, List.take_append_drop]

/-- What a reply comes to is read whole. -/
theorem readable_complete {arrivals : List Arrival} (complete : Complete arrivals) :
    Complete (readable arrivals) ∧ contents (readable arrivals) = contents arrivals := by
  induction arrivals with
  | nil => exact ⟨complete, rfl⟩
  | cons arrival rest inductionHypothesis =>
    obtain ⟨later, same⟩ := inductionHypothesis fun arrival member =>
      complete arrival (List.mem_cons_of_mem _ member)
    cases arrival with
    | octets first more =>
      have here := complete_pieces (more.length + 1) (first :: more)
      have whole : contents (pieces (more.length + 1) (first :: more)) = first :: more :=
        contents_pieces le_rfl
      exact ⟨complete_append here later, by rw [readable, contents_append here, whole, same, contents]⟩
    | failure e => exact absurd rfl (complete _ List.mem_cons_self e)

/-- Reads made in time come to what arrives. -/
theorem readings_inTime {clock : Nat → ℚ} {where_ : Str} {deadline : ℚ} {arrivals : List Arrival}
    {tick : Nat} (inTime : ∀ later, tick ≤ later → clock later ≤ deadline)
    (complete : Complete arrivals) : readings clock where_ deadline tick arrivals = arrivals := by
  induction arrivals generalizing tick with
  | nil => rw [readings, if_neg (not_lt.mpr (inTime tick le_rfl))]
  | cons arrival rest inductionHypothesis =>
    have rest_ := inductionHypothesis (fun later after => inTime later ((Nat.le_succ _).trans after))
      fun arrival member => complete arrival (List.mem_cons_of_mem _ member)
    cases arrival with
    | octets first more => rw [readings, if_neg (not_lt.mpr (inTime tick le_rfl)), rest_]
    | failure e => exact absurd rfl (complete _ List.mem_cons_self e)

theorem inMemory_complete (payload : Bytes) :
    Complete (inMemory payload) ∧ contents (inMemory payload) = payload := by
  cases payload with
  | nil => exact ⟨List.forall_mem_nil _, rfl⟩
  | cons first more =>
    refine ⟨fun arrival member e failed => ?_, List.append_nil _⟩
    cases (List.mem_singleton.mp member).symm.trans failed

/-! ### The two ways of reading -/

/-- The peer answers a request streamed from a session a complete response before the deadline. -/
structure StreamDelivers (world : World) (timeout : Timeout) (response : Response) (session : Session) :
    Prop where
  factory : world.factory (session.tick + 1) = none
  request : world.request (session.tick + 2) = none
  respond : world.respond session.call (session.tick + 3) = .ok response
  inTime : ∀ later, session.tick + 4 ≤ later →
    world.clock later ≤ world.clock session.tick + timeout.seconds

/-- Nothing keeps a call of a session from the response its node gives: it is not late, nothing but a
write raises, and no write fails but a stale one of a kept connection. -/
structure Unhindered (world : World) (request : Request) (timeout : Timeout) (maxBodySize : Int)
    (response : Response) (key : Key) (session : Session) : Prop where
  responds : ∀ tick, world.respond (session.call + 1) tick = .ok response
  inTime : ¬ Hindered world (world.clock session.tick + timeout.seconds) session.tick
    (session.send world request timeout maxBodySize).2.tick
  written : ¬ Miswritten session (session.send world request timeout maxBodySize).2 key

section Ways

variable {σ : Type} {lib : Urlparse} {world : World} {heap : Heap} {frames : Nat} {client : RpcClient}
  {cookie : CookieFile} {requestId : Str} {method params : Ref} {plan : Plan σ} {start : σ}
  {requestTimeout : Option Timeout} {maxBodySize : Nat} {response : Response} {parts : Url}

/-- The timeout of the call is the one it is made under. -/
theorem request_timeout {name : Str} {body : Bytes} {timeout : Timeout}
    (built : client.request world.py heap frames requestId method params requestTimeout =
      .ok (name, body, timeout)) : timeout = requestTimeout.getD client.timeout := by
  unfold RpcClient.request at built
  split at built
  · obtain ⟨_, _, built⟩ := bind_eq_ok built
    obtain ⟨_, _, built⟩ := bind_eq_ok built
    obtain ⟨_, _, built⟩ := bind_eq_ok built
    obtain ⟨_, _, ended⟩ := bind_eq_ok built
    cases ended
    rfl
  · cases built

/-- A reply that is delivered is read whole, under its own status. -/
theorem streamedPost_delivered {url : Str} {data : Bytes} {headers : List (Str × Str)}
    {timeout : Timeout} {session : Session} (library : world.urllib = lib.urllib)
    (sendable : Sendable world url headers timeout)
    (streams : StreamDelivers world timeout response session)
    (complete : Complete response.arrivals) :
    streamedPost lib world url data headers timeout session =
      .ok (response.status, readable response.arrivals) := by
  obtain ⟨parts, split⟩ := sendable.url
  rw [library] at split
  have posts : ∃ posted, postStream lib url data headers timeout = .ok posted := by
    simp only [postStream, sendable.assertValidTimeout, sendable.headers, split]
    exact ⟨_, rfl⟩
  obtain ⟨posted, posts⟩ := posts
  simp only [streamedPost, posts, streams.factory, streams.request, streams.respond, bind, Except.bind,
    readings_inTime streams.inTime (readable_complete complete).1]

/-- What is written is the request's own: a session asks no more of a request than its url. -/
theorem send_congr (request other : Request) (same : request.fullUrl = other.fullUrl)
    (timeout : Timeout) (maxBodySize : Int) (session : Session) :
    session.send world request timeout maxBodySize = session.send world other timeout maxBodySize := by
  simp only [Session.send, same]

/-- What a response comes to by itself: its status and its whole body, or a refusal for its size, or the
front of its body where it is a diagnosis. -/
theorem heldTo_cases (py : Interpreter) (where_ : Str) (complete : Complete response.arrivals) :
    (response.status < clientError →
      (announcedOver py response.contentLength maxBodySize = none ∧
        (contents response.arrivals).length ≤ maxBodySize ∧
        heldTo py where_ maxBodySize response = .ok (response.status, contents response.arrivals)) ∨
      ¬ (announcedOver py response.contentLength maxBodySize = none ∧
        (contents response.arrivals).length ≤ maxBodySize) ∧
        ∃ message, heldTo py where_ maxBodySize response = .error (.fetchError message)) ∧
    (clientError ≤ response.status → heldTo py where_ maxBodySize response =
      .ok (response.status, (contents response.arrivals).take maxErrorBodySize)) := by
  refine ⟨fun below => ?_, fun diagnosis => ?_⟩
  · simp only [heldTo, not_le.mpr below, decide_false, if_false]
    rcases @readBounded_refuse py (fun _ => 0) response.contentLength maxBodySize where_ 0
      ⟨response.arrivals, 0⟩ complete (fun _ _ => le_rfl) with
      ⟨quiet, fits, read⟩ | ⟨exceeds, message, read⟩
    · exact .inl ⟨quiet, fits, by rw [read]; rfl⟩
    · exact .inr ⟨exceeds, message, by rw [read]; rfl⟩
  · simp only [heldTo, diagnosis, decide_true, if_true]
    rw [@readBounded_truncate py (fun _ => 0) response.contentLength maxErrorBodySize where_ 0
      ⟨response.arrivals, 0⟩ complete fun _ _ => le_rfl]
    rfl

/-- What `http_request` answers over a session that nothing keeps from the response, whatever the session
was used for before. -/
theorem httpRequest_unhindered {url : Str} {data : Option Bytes} {headers : List (Str × Str)}
    {timeout : Timeout} {session : Session} {request : Request} (idle : session.Idle)
    (split : splitUrl world.urllib url = .ok parts) (addressed : request.fullUrl = url)
    (sendable : Sendable world url headers timeout) (complete : Complete response.arrivals)
    (unhindered : Unhindered world request timeout maxBodySize response parts.key session.ticked) :
    (response.status < clientError →
      (Within world response maxBodySize ∧
        (httpRequest world url data headers timeout maxBodySize .session session).1 =
          .ok (response.status, contents response.arrivals)) ∨
      (¬ Within world response maxBodySize ∧
        ∃ message, (httpRequest world url data headers timeout maxBodySize .session session).1 =
          .error (.fetchError message))) ∧
    (clientError ≤ response.status →
      (httpRequest world url data headers timeout maxBodySize .session session).1 =
        .ok (response.status, (contents response.arrivals).take maxErrorBodySize)) := by
  obtain ⟨made, same, _, run⟩ := @httpRequest_from world url data headers timeout maxBodySize session
    parts split sendable.headers sendable.timeout .session
  have calls : session.ticked.Idle := idle
  have sent := (send_answers calls (addressed ▸ split) sendable.timeout (Int.natCast_nonneg _)
    unhindered.responds unhindered.inTime unhindered.written).1
  rw [send_congr request made (addressed.trans same.symm)] at sent
  rw [run]
  simp only [Transport.call]
  generalize session.ticked.send world made timeout maxBodySize = outcome at sent
  obtain ⟨answer, after⟩ := outcome
  obtain ⟨below, diagnosed⟩ := @heldTo_cases maxBodySize response world.py parts.where_ complete
  refine ⟨fun small => ?_, fun diagnosis => ?_⟩
  · rcases below small with ⟨quiet, fits, held⟩ | ⟨exceeds, message, held⟩
    · left
      obtain rfl : answer = .ok (response.status, contents response.arrivals) := sent.trans held
      refine ⟨⟨quiet, fits⟩, ?_⟩
      simp only [readSent]
      rw [if_neg (not_le.mpr small), if_neg (not_lt.mpr (Int.ofNat_le.mpr fits))]
    · right
      obtain rfl : answer = .error (.fetchError message) := sent.trans held
      exact ⟨exceeds, message, rfl⟩
  · obtain rfl : answer = .ok (response.status, (contents response.arrivals).take maxErrorBodySize) :=
      sent.trans (diagnosed diagnosis)
    simp only [readSent]
    rw [if_pos diagnosis, List.take_take, Nat.min_self]

/-- A transport that answers the whole body within the limits is read as the stream is; one that
refuses the body for its size has `call_stream` refused. -/
theorem callStream_buffered {transport : Transport} {session session' : Session}
    (held : transport ≠ .urlopen) (tooLarge : Prop) (library : world.urllib = lib.urllib)
    (split : splitUrl world.urllib client.url = .ok parts)
    (streams : StreamDelivers world (requestTimeout.getD client.timeout) response session)
    (complete : Complete response.arrivals) (deep : maxStreamDepth ≤ world.py.nesting)
    (limits : plan.Limits (0 ≤ ·))
    (answers : ∀ body headers, Sendable world client.url headers (requestTimeout.getD client.timeout) →
      let sent := (httpRequest world client.url (some body) headers (requestTimeout.getD client.timeout)
        maxBodySize transport session').1
      sent = .ok (response.status, contents response.arrivals) ∨
      clientError ≤ response.status ∧
        sent = .ok (response.status, (contents response.arrivals).take maxErrorBodySize) ∨
      tooLarge ∧ IsFetchError sent) :
    let run transport session := ({ client with transport }).callStream lib world heap frames cookie
      requestId method params plan start requestTimeout maxBodySize session
    SameOrRefused (run .urlopen session) (run transport session') ∨
      tooLarge ∧ IsFetchError (run transport session') := by
  have request (transport : Transport) : ({ client with transport } : RpcClient).request world.py heap
      frames requestId method params requestTimeout =
        client.request world.py heap frames requestId method params requestTimeout := rfl
  have authHeader (transport : Transport) :
      ({ client with transport } : RpcClient).authHeader cookie = client.authHeader cookie := rfl
  simp only [RpcClient.callStream, request, authHeader]
  cases built : client.request world.py heap frames requestId method params requestTimeout with
  | error e => exact .inl (.inl rfl)
  | ok asked =>
  obtain ⟨name, body, timeout⟩ := asked
  rw [assertValidMaxBodySize_ofNat]
  cases authorized : client.authHeader cookie with
  | error e => exact .inl (.inl rfl)
  | ok authorization =>
  obtain rfl := request_timeout built
  have sendable : Sendable world client.url (RpcClient.headers authorization)
      (requestTimeout.getD client.timeout) :=
    ⟨⟨parts, split⟩, headers_valid authorized, (request_eq_ok built).2⟩
  dsimp only
  rw [streamedPost_delivered library sendable streams complete]
  dsimp only
  obtain ⟨whole, read⟩ := readable_complete complete
  have cut (payload : Bytes) (front : contents (readable response.arrivals) = payload ∨
      clientError ≤ response.status ∧
        payload = (contents (readable response.arrivals)).take maxErrorBodySize) :
      SameOrRefused
        (streamedResult world.py (name ++ str " at " ++ client.url)
          (plan.walk world.py (name ++ str " at " ++ client.url) start) maxBodySize requestId
          response.status (readable response.arrivals))
        (streamedResult world.py (name ++ str " at " ++ client.url)
          (plan.walk world.py (name ++ str " at " ++ client.url) start) maxBodySize requestId
          response.status (inMemory payload)) := by
    obtain ⟨held, same⟩ := inMemory_complete payload
    refine streamedPlan_cut deep limits whole held ?_ fun ok => ?_
    · rw [same]
      rcases front with rfl | ⟨_, rfl⟩
      · rfl
      · rw [List.take_take, Nat.min_self]
    · rw [same]
      rcases front with rfl | ⟨diagnosis, _⟩
      · rfl
      · exact absurd (ok ▸ diagnosis) (by decide)
  rcases answers body _ sendable with sent | ⟨diagnosis, sent⟩ | ⟨large, message, sent⟩
  · rw [sent]
    exact .inl (cut _ (.inl read))
  · rw [sent]
    exact .inl (cut _ (.inr ⟨diagnosis, by rw [read]⟩))
  · rw [sent]
    exact .inr ⟨large, message, rfl⟩

/-- Over the default transport `call_stream` reads a reply as it arrives, over a session or a transport
of the caller's own it walks the body held: one response comes to one answer, or is refused every time,
but where the body, or the length announced for it, is over the limit and not a diagnosis, which is
refused where it is held. What the session was used for before changes nothing, where nothing keeps the
call from its response. -/
theorem callStream_transports (library : world.urllib = lib.urllib)
    (split : splitUrl world.urllib client.url = .ok parts) (session : Session)
    (streams : StreamDelivers world (requestTimeout.getD client.timeout) response session)
    (complete : Complete response.arrivals) (deep : maxStreamDepth ≤ world.py.nesting)
    (limits : plan.Limits (0 ≤ ·)) :
    let run transport session := ({ client with transport }).callStream lib world heap frames cookie
      requestId method params plan start requestTimeout maxBodySize session
    (∀ operations request, request.fullUrl = client.url →
      let kept := Session.run world operations
      Unhindered world request (requestTimeout.getD client.timeout) maxBodySize response parts.key
        kept.ticked →
      SameOrRefused (run .urlopen session) (run .session kept) ∨
        (response.status < clientError ∧ ¬ Within world response maxBodySize) ∧
          IsFetchError (run .session kept)) ∧
    ∀ answer : Request → Timeout → Sent, (∀ request timeout,
        answer request timeout = .answered response.status (contents response.arrivals)) →
      ∀ session' : Session, SameOrRefused (run .urlopen session) (run (.own answer) session') ∨
        (response.status < clientError ∧ maxBodySize < (contents response.arrivals).length) ∧
          IsFetchError (run (.own answer) session') := by
  intro run
  have session_ : Transport.session ≠ .urlopen := nofun
  have own (answer : Request → Timeout → Sent) : Transport.own answer ≠ .urlopen := nofun
  constructor
  · intro operations request addressed kept unhindered
    refine callStream_buffered session_ _ library split streams complete deep limits
      fun body headers sendable => ?_
    obtain ⟨below, diagnosed⟩ := @httpRequest_unhindered world maxBodySize response parts client.url
      (some body) headers _ kept request (run_idle world operations) split addressed sendable complete
      unhindered
    rcases lt_or_ge response.status clientError with small | diagnosis
    · rcases below small with ⟨_, same⟩ | ⟨large, refused⟩
      · exact .inl same
      · exact .inr (.inr ⟨⟨small, large⟩, refused⟩)
    · exact .inr (.inl ⟨diagnosis, diagnosed diagnosis⟩)
  · intro answer answers session'
    refine callStream_buffered (own answer) _ library split streams complete deep limits
      fun body headers sendable => ?_
    obtain ⟨request, _, _, sent⟩ := @httpRequest_from world client.url (some body) headers
      (requestTimeout.getD client.timeout) maxBodySize session' parts split sendable.headers
      sendable.timeout (.own answer)
    dsimp only
    rw [sent, Transport.call, answers, readSent]
    split_ifs with diagnosis large
    · exact .inr (.inl ⟨diagnosis, rfl⟩)
    · exact .inr (.inr ⟨⟨not_le.mp diagnosis, Int.ofNat_lt.mp large⟩, _, rfl⟩)
    · exact .inl rfl

end Ways

/-- The walk that keeps the whole result. -/
def wholeResult : Plan (Option Json) := .value 100 fun json _ => some json

/-- A node that answers every call `true`, at once. -/
def trueNode : World :=
  { promptly ⟨200, none, false, trueSource⟩ with urllib := ascii.urllib }

/-- An earlier call to it. -/
def earlierCall : Request := ⟨asking.url, str "POST", str "/", none, []⟩

/-- The same client over a session that has kept a connection. -/
theorem callStream_transports_true :
    ({ asking with transport := .session } : RpcClient).callStream ascii trueNode twoCalls 50 .absent
      (str "a") 0 1 wholeResult none none (100 : Nat)
      (Session.run trueNode [.send earlierCall asking.timeout 100]) = .ok (.inr (some (.bool true))) := by
  have streamed : asking.callStream ascii trueNode twoCalls 50 .absent (str "a") 0 1 wholeResult none none
      (100 : Nat) Session.new = .ok (.inr (some (.bool true))) := by
    decide +kernel
  have split : splitUrl trueNode.urllib asking.url =
      .ok ⟨str "http", str "localhost", some 8332, str "http://localhost:8332"⟩ := rfl
  have promptly_ (late : ℚ) (same : late = (0 : ℚ) + asking.timeout.seconds) : ¬ late ≤ 0 := by
    have positive := asking_waits.1
    rw [same, zero_add, not_le]
    exact positive
  have unhindered : Unhindered trueNode earlierCall asking.timeout 100 ⟨200, none, false, trueSource⟩
      (str "http", str "localhost", 8332)
      (Session.run trueNode [.send earlierCall asking.timeout 100]).ticked := by
    refine ⟨fun _ => rfl, ?_, ?_⟩
    · rintro (⟨_, late⟩ | ⟨_, ⟨⟩⟩ | ⟨_, ⟨⟩⟩ | ⟨_, ⟨⟩⟩)
      exact promptly_ _ rfl late
    · have trace : ((Session.run trueNode [.send earlierCall asking.timeout 100]).ticked.send trueNode
          earlierCall asking.timeout 100).2.trace =
            (Session.run trueNode [.send earlierCall asking.timeout 100]).ticked.trace ++
              [.probed 0 false, .requested 0 none] := by
        decide +kernel
      rintro ⟨events, failed, e, same, member, _⟩
      rw [trace] at same
      obtain rfl := List.append_cancel_left same
      simp at member
  rcases (@callStream_transports _ ascii trueNode twoCalls 50 asking .absent (str "a") 0 1 wholeResult none
    none 100 ⟨200, none, false, trueSource⟩ _ rfl split Session.new
    ⟨rfl, rfl, rfl, fun _ _ => (not_le.mp (promptly_ _ rfl)).le⟩ trueSource_complete (by decide)
    (by show (0 : Int) ≤ 100; decide)).1 [.send earlierCall asking.timeout 100] earlierCall rfl
    unhindered with (same | ⟨⟨message, refused⟩, _⟩) | ⟨large, _⟩
  · exact same.symm.trans streamed
  · cases streamed.symm.trans refused
  · exact absurd ⟨rfl, by decide +kernel⟩ large.2

end BitcoinCoreRpc
