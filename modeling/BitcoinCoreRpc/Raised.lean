/-
This file says what the operations of the package raise, and when.

What a caller passed is refused as a `BtcRpcValueError` or a `BtcRpcTypeError`, and before
anything is asked of the network: the session is as it was. Everything after that is a
`FetchError`, whatever the peer, the resolver, the sockets and the parser raised, but for
what is no failure of a network at all, which passes through as it is.
-/

import BitcoinCoreRpc.Printable
import BitcoinCoreRpc.Parameters
import BitcoinCoreRpc.Raw

namespace BitcoinCoreRpc

/-! ### What an operation may raise -/

/-- `isinstance(e, (BtcRpcValueError, BtcRpcTypeError))` -/
def Exc.isCaller : Exc → Bool
  | .btcRpcValueError _ | .btcRpcTypeError _ => true
  | _ => false

/-- `isinstance(e, (OSError, HTTPException, FetchError))` -/
def Exc.isNetwork (e : Exc) : Bool :=
  e.isOSError || e.isHTTPException || e.isFetchError

/-- What is outside the package raises something that is no failure of a network. -/
def Foreign (world : World) (transport : Transport) (e : Exc) : Prop :=
  e.isNetwork = false ∧ (world.Raises e ∨ ∃ answer request timeout, transport = .own answer ∧
    (answer request timeout = .raised e ∨ ∃ response, answer request timeout = .httpError response ∧
      firstFailure response.arrivals = some e))

/-- A run that raises tells the caller what it passed was refused, the session being as it was, or
that the exchange failed; anything else is what is outside the package raised. -/
def Documented {α : Type} (world : World) (transport : Transport) (before : Session)
    (run : Except Exc α × Session) : Prop :=
  ∀ e, run.1 = .error e → (e.isCaller = true ∧ run.2 = before) ∨ e.isFetchError = true ∨
    Foreign world transport e

section Outcomes

variable {α β : Type} {world : World} {transport : Transport} {session after : Session}

theorem documented_ok (value : α) : Documented world transport session (.ok value, after) := by
  rintro e ⟨⟩

theorem documented_refused {e : Exc} (caller : e.isCaller = true) :
    Documented world transport session ((.error e, session) : Except Exc α × Session) := by
  rintro _ ⟨⟩
  exact .inl ⟨caller, rfl⟩

theorem documented_failed {e : Exc} (failed : e.isFetchError = true) :
    Documented world transport session ((.error e, after) : Except Exc α × Session) := by
  rintro _ ⟨⟩
  exact .inr (.inl failed)

/-- An outcome that is read, and only raises that the exchange failed. -/
theorem documented_read {outcome : Except Exc α}
    (failed : ∀ e, outcome = .error e → e.isFetchError = true) :
    Documented world transport session (outcome, after) :=
  fun e raised => .inr (.inl (failed e raised))

/-- Whatever value a run answers, what it raises is one thing. -/
theorem Documented.of_error {e : Exc}
    (run : Documented world transport session ((.error e, after) : Except Exc α × Session)) :
    Documented world transport session ((.error e, after) : Except Exc β × Session) := by
  rintro _ ⟨⟩
  exact run e rfl

end Outcomes

/-! ### What is refused before the exchange -/

theorem assertValidTimeout_caller {timeout : Timeout} {what : Str} {e : Exc}
    (refused : assertValidTimeout timeout what = .error e) : e.isCaller = true := by
  unfold assertValidTimeout at refused
  split_ifs at refused
  cases refused
  rfl

theorem assertValidMaxBodySize_caller {maxBodySize : Int} {e : Exc}
    (refused : assertValidMaxBodySize maxBodySize = .error e) : e.isCaller = true := by
  unfold assertValidMaxBodySize at refused
  split_ifs at refused
  cases refused
  rfl

theorem assertValidHeaders_caller {headers : List (Str × Str)} {e : Exc}
    (refused : assertValidHeaders headers = .error e) : e.isCaller = true := by
  induction headers with
  | nil => cases refused
  | cons header rest inductionHypothesis =>
    rw [assertValidHeaders] at refused
    split_ifs at refused
    · cases refused
      rfl
    · cases refused
      rfl
    · exact inductionHypothesis refused

theorem splitUrl_caller {urllib : Urllib} {url : Str} {e : Exc}
    (refused : splitUrl urllib url = .error e) : e.isCaller = true := by
  unfold splitUrl at refused
  repeat' split at refused
  all_goals cases refused
  all_goals rfl

theorem paramsMember_caller {params : Obj} {e : Exc} (refused : paramsMember params = .error e) :
    e.isCaller = true := by
  cases params <;> cases refused <;> rfl

/-- The walk over the parameters refuses them as the caller's. -/
theorem assertJsonParams_caller {heap : Heap} {left : Nat} {path : Str} {value : Obj} {e : Exc}
    (refused : assertJsonParams heap left [] path none value = .error e) : e.isCaller = true := by
  have outermost : Chain heap [] none value := ⟨by rintro _ ⟨⟩, List.forall_mem_nil _⟩
  cases assertJsonParams_refuses outermost refused <;> rfl

theorem dumpsScalar_error {py : Interpreter} {value : Obj} {e : Exc}
    (raised : dumpsScalar py value = .error e) : e.isValueError = true ∨ e.isCaller = true := by
  unfold dumpsScalar dumpsInt at raised
  split at raised
  · cases raised
  · cases raised
  · cases raised
  · split_ifs at raised
    cases raised
    exact .inl rfl
  · split_ifs at raised
    cases raised
    exact .inl rfl
  · cases raised
  · cases raised
    exact .inr rfl

/-- The writer raises a `ValueError`, a `RecursionError` or a refusal of what it was given. -/
theorem requestJson_error {py : Interpreter} {heap : Heap} {frames : Nat} {value : Obj} {e : Exc}
    (raised : requestJson py heap frames value = .error e) :
    e.isValueError = true ∨ e.isRecursionError = true ∨ e.isCaller = true := by
  induction frames generalizing value with
  | zero =>
    cases raised
    exact .inr (.inl rfl)
  | succ frames inductionHypothesis =>
    have scalar {value : Obj} (raised : dumpsScalar py value = .error e) :
        e.isValueError = true ∨ e.isRecursionError = true ∨ e.isCaller = true :=
      (dumpsScalar_error raised).imp_right .inr
    cases value with
    | decimal number =>
      cases number with
      | finite negative coefficient exponent =>
        rw [requestJson, decimalJson] at raised
        split_ifs at raised
        cases raised
        exact .inl rfl
      | _ =>
        cases raised
        exact .inl rfl
    | dict members =>
      rw [requestJson] at raised
      rcases bind_eq_error raised with failed | ⟨_, _, ended⟩
      · obtain ⟨⟨name, item⟩, _, raised⟩ := mapM_eq_error failed
        dsimp only at raised
        split at raised
        · rcases bind_eq_error raised with inner | ⟨_, _, ended⟩
          · exact inductionHypothesis inner
          · cases ended
        · cases raised
          exact .inr (.inr rfl)
      · cases ended
    | list items | tuple items =>
      rw [requestJson] at raised
      rcases bind_eq_error raised with failed | ⟨_, _, ended⟩
      · obtain ⟨item, _, inner⟩ := mapM_eq_error failed
        exact inductionHypothesis inner
      · cases ended
    | _ =>
      simp only [requestJson] at raised
      exact scalar raised

theorem requestBody_caller {py : Interpreter} {heap : Heap} {frames : Nat} {request : Obj} {e : Exc}
    (refused : requestBody py heap frames request = .error e) : e.isCaller = true := by
  unfold requestBody at refused
  split at refused
  · cases refused
  rename_i raised failed
  split_ifs at refused with carried
  · cases refused
    rfl
  · cases refused
    rcases requestJson_error failed with value | deep | caller
    · exact absurd (by rw [value, Bool.true_or]) carried
    · exact absurd (by rw [deep, Bool.or_true]) carried
    · exact caller

/-- A fold that raises does so at one of its steps. -/
theorem foldlM_eq_error {α β ε : Type} {f : β → α → Except ε β} {items : List α} {start : β} {e : ε}
    (raised : items.foldlM f start = .error e) : ∃ held item, f held item = .error e := by
  induction items generalizing start with
  | nil => cases raised
  | cons item rest inductionHypothesis =>
    rw [List.foldlM_cons] at raised
    rcases bind_eq_error raised with here | ⟨_, _, later⟩
    · exact ⟨start, item, here⟩
    · exact inductionHypothesis later

section Requests

variable {py : Interpreter} {heap : Heap} {frames : Nat} {client : RpcClient} {requestId : Str}
  {method params : Ref} {requestTimeout : Option Timeout} {e : Exc}

theorem request_caller
    (refused : client.request py heap frames requestId method params requestTimeout = .error e) :
    e.isCaller = true := by
  unfold RpcClient.request at refused
  split at refused
  · rcases bind_eq_error refused with late | ⟨_, _, refused⟩
    · exact assertValidTimeout_caller late
    rcases bind_eq_error refused with shape | ⟨_, _, refused⟩
    · exact paramsMember_caller shape
    rcases bind_eq_error refused with walked | ⟨_, _, refused⟩
    · exact assertJsonParams_caller walked
    rcases bind_eq_error refused with written | ⟨_, _, ended⟩
    · exact requestBody_caller written
    · cases ended
  · cases refused
    rfl

theorem rawRequest_caller {jsonrpc : Obj}
    (refused : client.rawRequest py heap frames requestId method params jsonrpc requestTimeout =
      .error e) : e.isCaller = true := by
  unfold RpcClient.rawRequest at refused
  split at refused
  · rcases bind_eq_error refused with marker | ⟨_, _, refused⟩
    · unfold jsonrpcMarker at marker
      split at marker <;> cases marker
      rfl
    rcases bind_eq_error refused with late | ⟨_, _, refused⟩
    · exact assertValidTimeout_caller late
    rcases bind_eq_error refused with shape | ⟨_, _, refused⟩
    · exact paramsMember_caller shape
    rcases bind_eq_error refused with walked | ⟨_, _, refused⟩
    · exact assertJsonParams_caller walked
    rcases bind_eq_error refused with written | ⟨_, _, ended⟩
    · exact requestBody_caller written
    · cases ended
  · cases refused
    rfl

theorem batchPairs_caller {calls : Obj} (refused : batchPairs heap calls = .error e) :
    e.isCaller = true := by
  have read (members : List (Ref × Nat)) (f : Ref × Nat → Except Exc (Ref × Ref))
      (each : ∀ slot, f slot = .error e → e.isCaller = true) (failed : members.mapM f = .error e) :
      e.isCaller = true := by
    obtain ⟨slot, _, raised⟩ := mapM_eq_error failed
    exact each slot raised
  unfold batchPairs at refused
  dsimp only at refused
  split at refused
  all_goals
    first
    | cases refused
      rfl
    | refine read _ _ (fun slot raised => ?_) refused
      split at raised <;> cases raised
      all_goals rfl

theorem batchMemberRequest_caller {index : Nat}
    (refused : batchMemberRequest heap index method params requestId = .error e) :
    e.isCaller = true := by
  unfold batchMemberRequest at refused
  dsimp only at refused
  split at refused
  · split at refused
    · cases refused
    · cases refused
      rfl
    · cases refused
      rfl
    · rename_i raised _ _ built
      cases refused
      rcases bind_eq_error built with shape | ⟨_, _, built⟩
      · exact paramsMember_caller shape
      rcases bind_eq_error built with walked | ⟨_, _, ended⟩
      · exact assertJsonParams_caller walked
      · cases ended
  · cases refused
    rfl

theorem batchRequest_caller {rpcIds : Nat → Str} {timeout : Timeout} {what : Str} {calls : Obj}
    (refused : batchRequest py heap frames rpcIds (assertValidTimeout timeout what) calls = .error e) :
    e.isCaller = true := by
  rcases bind_eq_error refused with pairs | ⟨pairs, _, refused⟩
  · exact batchPairs_caller pairs
  split_ifs at refused
  · cases refused
    rfl
  rcases bind_eq_error refused with late | ⟨_, _, refused⟩
  · exact assertValidTimeout_caller late
  rcases bind_eq_error refused with members | ⟨_, _, refused⟩
  · obtain ⟨held, slot, raised⟩ := foldlM_eq_error members
    rcases bind_eq_error raised with refused | ⟨_, _, ended⟩
    · exact batchMemberRequest_caller refused
    · cases ended
  rcases bind_eq_error refused with written | ⟨_, _, ended⟩
  · exact requestBody_caller written
  · cases ended

/-- A credential is refused as the caller's, or as a cookie that could not be read. -/
theorem authHeader_error {cookie : CookieFile} (refused : client.authHeader cookie = .error e) :
    e.isCaller = true ∨ e.isFetchError = true := by
  rcases bind_eq_error refused with unread | ⟨credential, _, refused⟩
  · right
    unfold RpcClient.credential cookieAuth at unread
    split at unread
    · split at unread
      all_goals
        try split_ifs at unread
        all_goals cases unread
        all_goals rfl
    · cases unread
  · split_ifs at refused
    · cases refused
    · cases refused
      exact .inl rfl

end Requests

/-! ### What an exchange raises -/

section Exchange

variable {world : World} {where_ : Str} {deadline : ℚ} {session after : Session} {key : Key}
  {connection : ConnectionId} {e : Exc}

/-- An exception of an exchange: a failure of a network, or what the network raised all the same. -/
def Arises (world : World) (e : Exc) : Prop := e.isNetwork = true ∨ world.Raises e

theorem timeLeft_arises (raised : session.timeLeft world deadline where_ = (.error e, after)) :
    Arises world e := by
  unfold Session.timeLeft at raised
  simp only at raised
  split_ifs at raised <;> cases raised
  exact .inl rfl

theorem connect_arises (raised : session.connect world key deadline where_ = (.error e, after)) :
    Arises world e := by
  unfold Session.connect at raised
  split at raised
  · rename_i late
    cases raised
    exact timeLeft_arises late
  · split at raised <;> cases raised
    exact .inr (.factory ‹_›)

theorem checkout_arises (raised : session.checkout world key deadline where_ = (.error e, after)) :
    Arises world e := by
  unfold Session.checkout at raised
  split at raised
  · split at raised <;> cases raised
    rename_i failed
    exact connect_arises failed
  split at raised
  · rename_i failed
    cases raised
    unfold Session.probe at failed
    split at failed <;> cases failed
    exact .inr (.probe ‹_›)
  · split at raised <;> cases raised
    rename_i failed
    exact connect_arises failed
  · split at raised
    · rename_i late
      cases raised
      exact timeLeft_arises late
    · simp only at raised
      split at raised <;> cases raised
      exact .inr (.settimeout ‹_›)

theorem request_arises (raised : session.request world connection = (some e, after)) :
    Arises world e :=
  have failed : world.request session.tick = some e := congrArg Prod.fst raised
  .inr (.request failed)

theorem write_arises {reused : Bool} {left : ConnectionId}
    (raised : session.write world key deadline where_ connection reused = (some e, left, after)) :
    Arises world e := by
  unfold Session.write at raised
  split at raised
  · cases raised
  rename_i failed
  split_ifs at raised
  · split at raised
    · rename_i refused
      cases raised
      exact connect_arises refused
    · rename_i fresh reconnected _
      generalize again : reconnected.request world fresh = written at raised
      obtain ⟨outcome, ended⟩ := written
      cases raised
      exact request_arises again
  · cases raised
    exact request_arises failed

theorem getresponse_arises (raised : session.getresponse world connection = (.error e, after)) :
    Arises world e := by
  rcases getresponse_network world connection session with lost | ⟨call, tick, same⟩ |
    ⟨unread, tick, same⟩
  all_goals
    rw [raised] at *
  · cases lost
    exact .inl rfl
  · exact .inr (.respond same.symm)
  · exact .inr (.leftover same.symm)

theorem sendAndReceive_arises
    (raised : session.sendAndReceive world key deadline where_ = (.error e, after)) :
    Arises world e := by
  unfold Session.sendAndReceive at raised
  split at raised
  · rename_i failed
    cases raised
    exact checkout_arises failed
  · split at raised
    · rename_i failed
      cases raised
      exact write_arises failed
    · split at raised <;> cases raised
      rename_i failed
      exact getresponse_arises failed

/-- A read under a limit raises what arrives, or that the body is refused. -/
theorem readBounded_error {py : Interpreter} {clock : Nat → ℚ} {contentLength : Option Str}
    {maxBodySize : Int} {truncate : Bool} {reader read : Reader} (limit : 0 ≤ maxBodySize)
    (raised : readBounded py clock contentLength maxBodySize where_ deadline truncate reader =
      (.error e, read)) : e.isFetchError = true ∨ firstFailure reader.arrivals = some e := by
  rw [readBounded_eq] at raised
  unfold assertValidMaxBodySize at raised
  rw [if_neg (not_lt.mpr limit)] at raised
  dsimp only at raised
  split at raised
  · cases raised
    exact .inl rfl
  split at raised
  · rename_i looped
    cases raised
    rcases readLoop_eq_error looped with rfl | failed
    · exact .inl rfl
    · exact .inr failed
  · split_ifs at raised <;> cases raised
    exact .inl rfl

/-- What a `SessionTransport` raises, past its own checks. -/
theorem send_arises {request : Request} {timeout : Timeout} {maxBodySize : Int} {parts : Url}
    (waits : 0 < timeout.seconds ∧ timeout.seconds ≤ maxTimeout) (limit : 0 ≤ maxBodySize)
    (split : splitUrl world.urllib request.fullUrl = .ok parts)
    (raised : session.send world request timeout maxBodySize = (.error e, after)) :
    Arises world e := by
  unfold Session.send at raised
  simp only [split, assertValidTimeout, if_pos waits, assertValidMaxBodySize, if_neg (not_lt.mpr limit)]
    at raised
  split at raised
  · rename_i failed
    cases raised
    exact sendAndReceive_arises failed
  · rename_i response connection received answered
    split at raised
    · rename_i broken
      cases raised
      unfold Session.readBody at broken
      simp only at broken
      split at broken
      · rename_i read
        cases broken
        have room : 0 ≤ if decide (clientError ≤ response.status) then (maxErrorBodySize : Int)
            else maxBodySize := by
          split_ifs
          · exact Int.natCast_nonneg _
          · exact limit
        rcases readBounded_error room (Prod.ext read rfl) with refused | failed
        · exact .inl (by rw [Exc.isNetwork, refused, Bool.or_true])
        · exact .inr (.arrival (sendAndReceive_responds answered) failed)
      · split_ifs at broken <;> cases broken
    · split_ifs at raised <;> cases raised

/-- What a transport came to raises, or has a body that fails with, a failure of a network or what is
outside the package. -/
def Sent.Arises (world : World) (transport : Transport) : Sent → Prop
  | .answered _ _ => True
  | .raised e => e.isNetwork = true ∨ Foreign world transport e
  | .httpError response => ∀ e, firstFailure response.arrivals = some e →
      e.isNetwork = true ∨ Foreign world transport e

theorem Arises.foreign {transport : Transport} (arises : Arises world e) :
    e.isNetwork = true ∨ Foreign world transport e := by
  cases network : e.isNetwork with
  | true => exact .inl rfl
  | false => exact .inr ⟨network, .inl (arises.resolve_left (Bool.eq_false_iff.mp network))⟩

theorem transport_arises {request : Request} {timeout : Timeout} {maxBodySize : Int} {parts : Url}
    (waits : 0 < timeout.seconds ∧ timeout.seconds ≤ maxTimeout) (limit : 0 ≤ maxBodySize)
    (split : splitUrl world.urllib request.fullUrl = .ok parts) (transport : Transport) :
    (transport.call world request timeout maxBodySize session).1.Arises world transport := by
  cases transport with
  | urlopen =>
    simp only [Transport.call, urlopenTransport, split, assertValidTimeout, if_pos waits,
      assertValidMaxBodySize, if_neg (not_lt.mpr limit)]
    split
    · rename_i failed
      exact Arises.foreign (.inr (.opener failed))
    rename_i response answered
    have arrives {e : Exc} (failed : firstFailure response.arrivals = some e) : Arises world e :=
      .inr (.arrival (.opener answered) failed)
    split_ifs
    · split
      · rename_i read
        rcases readBounded_error limit read with refused | failed
        · exact .inl (by rw [Exc.isNetwork, refused, Bool.or_true])
        · exact (arrives failed).foreign
      · trivial
    · exact fun e failed => (arrives failed).foreign
  | session =>
    simp only [Transport.call]
    split
    · trivial
    · rename_i failed
      exact (send_arises waits limit split failed).foreign
  | own answer =>
    show (answer request timeout).Arises world (.own answer)
    cases came : answer request timeout with
    | answered status body => trivial
    | raised e =>
      show e.isNetwork = true ∨ _
      cases network : e.isNetwork with
      | true => exact .inl rfl
      | false => exact .inr ⟨network, .inr ⟨answer, request, timeout, rfl, .inl came⟩⟩
    | httpError response =>
      intro e failed
      cases network : e.isNetwork with
      | true => exact .inl rfl
      | false => exact .inr ⟨network, .inr ⟨answer, request, timeout, rfl, .inr ⟨response, came, failed⟩⟩⟩

/-- What `http_request` makes of it is a `FetchError`, or passes through as it is. -/
theorem readSent_error {transport : Transport} {maxBodySize : Int} {sent : Sent}
    (arises : sent.Arises world transport)
    (raised : (readSent world where_ deadline maxBodySize sent session).1 = .error e) :
    e.isFetchError = true ∨ Foreign world transport e := by
  cases sent with
  | answered status body =>
    simp only [readSent] at raised
    split_ifs at raised
    cases raised
    exact .inl rfl
  | raised failure =>
    simp only [readSent] at raised
    split_ifs at raised with low
    · cases raised
      exact .inl rfl
    · cases raised
      refine arises.imp_left fun network => ?_
      rwa [Exc.isNetwork, Bool.eq_false_iff.mpr low, Bool.false_or] at network
  | httpError response =>
    simp only [readSent] at raised
    split at raised
    · cases raised
    · rename_i failure reader read
      split_ifs at raised with low
      cases raised
      rcases readBounded_error (Int.natCast_nonneg _) read with refused | failed
      · exact absurd (by rw [refused, Bool.or_true]) low
      · exact .inr ((arises _ failed).resolve_left low)

/-- `http_request` refuses what it was passed with nothing asked, and a failure of the exchange is a
`FetchError`. -/
theorem httpRequest_documented (url : Str) (data : Option Bytes) (headers : List (Str × Str))
    (timeout : Timeout) (maxBodySize : Int) (transport : Transport) (session : Session) :
    Documented world transport session
      (httpRequest world url data headers timeout maxBodySize transport session) := by
  unfold httpRequest
  cases sized : assertValidMaxBodySize maxBodySize with
  | error e => exact documented_refused (assertValidMaxBodySize_caller sized)
  | ok _ =>
  cases timed : assertValidTimeout timeout (str "http timeout") with
  | error e => exact documented_refused (assertValidTimeout_caller timed)
  | ok _ =>
  cases headed : assertValidHeaders headers with
  | error e => exact documented_refused (assertValidHeaders_caller headed)
  | ok _ =>
  cases split : splitUrl world.urllib url with
  | error e => exact documented_refused (splitUrl_caller split)
  | ok parts =>
  have waits : 0 < timeout.seconds ∧ timeout.seconds ≤ maxTimeout := by
    unfold assertValidTimeout at timed
    split_ifs at timed with waits
    exact waits
  have limit : 0 ≤ maxBodySize := by
    unfold assertValidMaxBodySize at sized
    split_ifs at sized with negative
    exact not_lt.mp negative
  intro e raised
  exact .inr (readSent_error (transport_arises waits limit split transport) raised)

end Exchange

/-! ### A batch, as it is called -/

/-- What `call_batch` makes of the reply. -/
def batchReply (py : Interpreter) (url : Str) (methods requestIds : List Str) (status : Nat)
    (payload : Bytes) : Except Exc (List BatchEntry) := do
  let where_ := str "call_batch at " ++ url
  if status ≠ 200 then .error (httpError where_ status)
  else do
    let replies ← batchReplyArray (loads py) where_ status payload
    readBatch py url methods requestIds replies

/-- `call_batch` -/
def RpcClient.callBatch (world : World) (heap : Heap) (frames : Nat) (client : RpcClient)
    (cookie : CookieFile) (rpcIds : Nat → Str) (calls : Obj) (requestTimeout : Option Timeout)
    (maxBodySize : Int) (session : Session) : Except Exc (List BatchEntry) × Session :=
  let timeout := requestTimeout.getD client.timeout
  match batchRequest world.py heap frames rpcIds (assertValidTimeout timeout
      (str "rpc request_timeout")) calls with
  | .error e => (.error e, session)
  | .ok (methods, requestIds, body) =>
    match client.authHeader cookie with
    | .error e => (.error e, session)
    | .ok authorization =>
      match httpRequest world client.url (some body) (headers authorization) timeout maxBodySize
          client.transport session with
      | (.error e, session) => (.error e, session)
      | (.ok (status, payload), session) =>
        (batchReply world.py client.url methods requestIds status payload, session)

/-- It answers what the batch of its requests does over what carries them. -/
theorem callBatch_carried {world : World} {heap : Heap} {frames : Nat} {client : RpcClient}
    {cookie : CookieFile} {rpcIds : Nat → Str} {calls : Obj} {requestTimeout : Option Timeout}
    {maxBodySize : Int} {session : Session} :
    (client.callBatch world heap frames cookie rpcIds calls requestTimeout maxBodySize session).1 =
      callBatch world.py (loads world.py) heap frames client.url rpcIds
        (assertValidTimeout (requestTimeout.getD client.timeout) (str "rpc request_timeout"))
        (fun body => do
          let authorization ← client.authHeader cookie
          (httpRequest world client.url (some body) (RpcClient.headers authorization)
            (requestTimeout.getD client.timeout) maxBodySize client.transport session).1) calls := by
  unfold RpcClient.callBatch callBatch
  dsimp only
  cases batchRequest world.py heap frames rpcIds (assertValidTimeout
    (requestTimeout.getD client.timeout) (str "rpc request_timeout")) calls with
  | error e => rfl
  | ok asked =>
    obtain ⟨methods, requestIds, body⟩ := asked
    dsimp only [bind, Except.bind]
    cases client.authHeader cookie with
    | error e => rfl
    | ok authorization =>
      dsimp only
      rcases httpRequest world client.url (some body) (RpcClient.headers authorization)
        (requestTimeout.getD client.timeout) maxBodySize client.transport session with
        ⟨e | ⟨status, payload⟩, after⟩
      · rfl
      · rfl

/-! ### What a reply is refused with -/

theorem Refused.isFetchError {status : Nat} {e : Exc} (refused : Refused status e) :
    e.isFetchError = true := by
  rcases refused with ⟨_, _, rfl⟩ | ⟨_, _, rfl⟩ <;> rfl

section Replies

variable {py : Interpreter} {where_ url requestId : Str} {status : Nat} {payload : Bytes} {e : Exc}

theorem parsedJsonBody_error
    (raised : parsedJsonBody (loads py) where_ status payload = .error e) : e.isFetchError = true := by
  rcases parsedJsonBody_cases (loads_raises py) where_ status payload with ⟨_, _, same⟩ |
    ⟨_, _, _, same, refused⟩
  · cases same.symm.trans raised
  · cases same.symm.trans raised
    exact refused.isFetchError

theorem classified_error {reply : Dict} {outcome : Except Exc Json}
    (classified : Classified requestId status reply outcome) (raised : outcome = .error e) :
    e.isFetchError = true := by
  subst raised
  cases e with
  | rpcError message code data => rfl
  | _ => exact classified.1.isFetchError

theorem result_error {method : Str}
    (raised : result py (loads py) method url requestId status payload = .error e) :
    e.isFetchError = true := by
  rcases result_cases py (loads_raises py) method url requestId status payload with
    ⟨_, _, classified⟩ | ⟨_, _, same, refused⟩
  · exact classified_error classified raised
  · cases same.symm.trans raised
    exact refused.isFetchError

theorem batchReplyArray_error (raised : batchReplyArray (loads py) where_ status payload = .error e) :
    e.isFetchError = true := by
  rcases bind_eq_error raised with unparsed | ⟨reply, _, raised⟩
  · exact parsedJsonBody_error unparsed
  · split at raised <;> cases raised
    rfl

theorem readBatch_error {methods requestIds : List Str} {replies : List Json}
    (raised : readBatch py url methods requestIds replies = .error e) : e.isFetchError = true := by
  rcases readBatch_cases py url methods requestIds replies with ⟨byId, count, correlates, same⟩ |
    ⟨_, _, same⟩
  · obtain ⟨message, rfl⟩ := batchEntries_raises correlates count (same ▸ raised)
    rfl
  · cases same.symm.trans raised
    rfl

end Replies

/-! ### The operations -/

section Operations

variable {world : World} {heap : Heap} {frames : Nat} {client : RpcClient} {cookie : CookieFile}
  {requestId : Str} {method params : Ref} {requestTimeout : Option Timeout} {maxBodySize : Int}
  {session : Session}

/-- An exchange, once its request is built: a credential that is refused, or a reply that is read. -/
theorem documented_exchange {α : Type} {body : Bytes} {timeout : Timeout}
    (read : Nat → Bytes → Except Exc α)
    (failed : ∀ status payload e, read status payload = .error e → e.isFetchError = true) :
    Documented world client.transport session
      (match client.authHeader cookie with
      | .error e => (.error e, session)
      | .ok authorization =>
        match httpRequest world client.url (some body) (RpcClient.headers authorization) timeout
            maxBodySize client.transport session with
        | (.error e, session) => (.error e, session)
        | (.ok (status, payload), session) => (read status payload, session)) := by
  cases authorized : client.authHeader cookie with
  | error e =>
    rcases authHeader_error authorized with caller | cookie
    · exact documented_refused caller
    · exact documented_failed cookie
  | ok authorization =>
    have exchange := @httpRequest_documented world client.url (some body)
      (RpcClient.headers authorization) timeout maxBodySize client.transport session
    dsimp only
    rcases ran : httpRequest world client.url (some body) (RpcClient.headers authorization) timeout
      maxBodySize client.transport session with ⟨e | ⟨status, payload⟩, after⟩
    · rw [ran] at exchange
      exact exchange.of_error
    · exact documented_read (failed status payload)

theorem call_documented : Documented world client.transport session
    (client.call world heap frames cookie requestId method params requestTimeout maxBodySize
      session) := by
  unfold RpcClient.call
  cases built : client.request world.py heap frames requestId method params requestTimeout with
  | error e => exact documented_refused (request_caller built)
  | ok asked =>
    obtain ⟨name, body, timeout⟩ := asked
    refine documented_exchange (fun status payload =>
      result world.py (loads world.py) name client.url requestId status payload) ?_
    exact fun status payload e raised => result_error raised

theorem callRaw_documented {jsonrpc : Obj} : Documented world client.transport session
    (client.callRaw world heap frames cookie requestId method params jsonrpc requestTimeout maxBodySize
      session) := by
  unfold RpcClient.callRaw
  cases built : client.rawRequest world.py heap frames requestId method params jsonrpc requestTimeout with
  | error e => exact documented_refused (rawRequest_caller built)
  | ok asked =>
    obtain ⟨name, body, timeout⟩ := asked
    refine documented_exchange (fun status payload =>
      (parsedJsonBody (loads world.py) (name ++ str " at " ++ client.url) status payload).map
        (status, ·)) ?_
    exact fun status payload e raised => parsedJsonBody_error (map_eq_error raised)

theorem callBatch_documented {rpcIds : Nat → Str} {calls : Obj} :
    Documented world client.transport session (client.callBatch world heap frames cookie rpcIds calls
      requestTimeout maxBodySize session) := by
  unfold RpcClient.callBatch
  dsimp only
  cases built : batchRequest world.py heap frames rpcIds (assertValidTimeout
    (requestTimeout.getD client.timeout) (str "rpc request_timeout")) calls with
  | error e => exact documented_refused (batchRequest_caller built)
  | ok asked =>
    obtain ⟨methods, requestIds, body⟩ := asked
    refine documented_exchange (batchReply world.py client.url methods requestIds) ?_
    intro status payload e raised
    unfold batchReply at raised
    dsimp only at raised
    split_ifs at raised with failed
    · cases raised
      exact (httpError_refused failed).isFetchError
    · rcases bind_eq_error raised with unread | ⟨replies, _, raised⟩
      · exact batchReplyArray_error unread
      · exact readBatch_error raised

theorem boundCall_documented {name : Str} {args : List Ref} {kwargs : List (Str × Ref)} :
    Documented world client.transport session (client.boundCall world heap frames cookie requestId name
      args kwargs requestTimeout maxBodySize session) := by
  unfold RpcClient.boundCall
  split_ifs
  · exact documented_refused rfl
  · exact call_documented

end Operations

section Resources

variable {world : World} {client : RestClient} {path : Str} {requestTimeout : Option Timeout}
  {maxBodySize : Int} {session : Session}

theorem get_documented : Documented world client.transport session
    (client.get world path requestTimeout maxBodySize session) := by
  unfold RestClient.get
  cases rooted : restUrl client.url path with
  | error e =>
    unfold restUrl at rooted
    split_ifs at rooted
    cases rooted
    exact documented_refused rfl
  | ok url =>
    dsimp only
    cases timed : assertValidTimeout (requestTimeout.getD client.timeout)
      (str "rest request_timeout") with
    | error e => exact documented_refused (assertValidTimeout_caller timed)
    | ok _ =>
      have exchange := @httpRequest_documented world url none
        [(str "User-Agent", userAgent)] (requestTimeout.getD client.timeout) maxBodySize client.transport
        session
      intro e raised
      exact exchange e (map_eq_error raised)

theorem getBin_documented : Documented world client.transport session
    (client.getBin world path requestTimeout maxBodySize session) := by
  have asked := @get_documented world client path requestTimeout maxBodySize session
  unfold RestClient.getBin
  rcases ran : client.get world path requestTimeout maxBodySize session with
    ⟨e | ⟨where_, status, payload⟩, after⟩
  · rw [ran] at asked
    exact asked.of_error
  · dsimp only
    split_ifs with failed
    · exact documented_failed (httpError_refused failed).isFetchError
    · exact documented_ok payload

theorem getJson_documented : Documented world client.transport session
    (client.getJson world (loads world.py) path requestTimeout maxBodySize session) := by
  have asked := @get_documented world client path requestTimeout maxBodySize session
  unfold RestClient.getJson
  rcases ran : client.get world path requestTimeout maxBodySize session with
    ⟨e | ⟨where_, status, payload⟩, after⟩
  · rw [ran] at asked
    exact asked.of_error
  · dsimp only
    split_ifs with failed
    · exact documented_failed (httpError_refused failed).isFetchError
    · exact documented_read fun e raised => parsedJsonBody_error raised

end Resources

/-! ### What is handed back -/

/-- A body that is handed back is within the limit of an answer, or is a failure's within its own. -/
def WithinLimits (maxBodySize : Int) (status : Nat) (body : Bytes) : Prop :=
  body.length ≤ maxErrorBodySize ∨ status < clientError ∧ (body.length : Int) ≤ maxBodySize

theorem readBounded_length {py : Interpreter} {clock : Nat → ℚ} {contentLength : Option Str}
    {limit : Nat} {where_ : Str} {deadline : ℚ} {truncate : Bool} {reader read : Reader} {body : Bytes}
    (answered : readBounded py clock contentLength limit where_ deadline truncate reader =
      (.ok body, read)) : body.length ≤ limit := by
  rw [readBounded_eq] at answered
  rw [assertValidMaxBodySize_ofNat] at answered
  dsimp only at answered
  split at answered
  · cases answered
  split at answered
  · cases answered
  · split_ifs at answered with tooLarge
    · cases answered
      exact List.length_take_le _ _
    · cases answered
    · cases answered
      omega

theorem httpRequest_withinLimits {world : World} {url : Str} {data : Option Bytes}
    {headers : List (Str × Str)} {timeout : Timeout} {maxBodySize : Int} {transport : Transport} {session : Session} {status : Nat}
    {body : Bytes}
    (answered : (httpRequest world url data headers timeout maxBodySize transport session).1 =
      .ok (status, body)) : WithinLimits maxBodySize status body := by
  unfold httpRequest at answered
  split at answered
  · cases answered
  split at answered
  · cases answered
  split at answered
  · cases answered
  split at answered
  · cases answered
  simp only at answered
  generalize Transport.call world _ timeout maxBodySize _ transport = sent at answered
  obtain ⟨outcome, after⟩ := sent
  cases outcome with
  | answered status' body' =>
    simp only [readSent] at answered
    split_ifs at answered with diagnosis tooLarge
    · cases answered
      exact .inl (List.length_take_le _ _)
    · cases answered
      exact .inr ⟨not_le.mp diagnosis, not_lt.mp tooLarge⟩
  | raised e =>
    simp only [readSent] at answered
    split_ifs at answered
  | httpError response =>
    simp only [readSent] at answered
    split at answered
    · rename_i read
      cases answered
      exact .inl (readBounded_length read)
    · split_ifs at answered
      cases answered
      exact .inl (Nat.zero_le _)

theorem getBin_withinLimits {world : World} {client : RestClient} {path : Str}
    {requestTimeout : Option Timeout} {maxBodySize : Int} {session : Session} {body : Bytes}
    (answered : (client.getBin world path requestTimeout maxBodySize session).1 = .ok body) :
    WithinLimits maxBodySize 200 body := by
  unfold RestClient.getBin RestClient.get at answered
  cases rooted : restUrl client.url path with
  | error e =>
    rw [rooted] at answered
    cases answered
  | ok url =>
    rw [rooted] at answered
    cases timed : assertValidTimeout (requestTimeout.getD client.timeout)
      (str "rest request_timeout") with
    | error e =>
      simp only [timed] at answered
      cases answered
    | ok _ =>
      simp only [timed] at answered
      rcases sent : httpRequest world url none [(str "User-Agent", userAgent)]
        (requestTimeout.getD client.timeout) maxBodySize client.transport session with
        ⟨e | ⟨status, payload⟩, after⟩
      · rw [sent] at answered
        cases answered
      · rw [sent] at answered
        dsimp only [Except.map] at answered
        split_ifs at answered with failed
        cases answered
        exact not_not.mp failed ▸ httpRequest_withinLimits (congrArg Prod.fst sent)

/-! ### The package, as it is used -/

/-- A use of the package: `http_request`, a method of one of its clients, or a method of a channel. -/
inductive Usage
  | httpRequest (url : Str) (data : Option Bytes) (headers : List (Str × Str)) (timeout : Timeout)
    (maxBodySize : Int) (transport : Transport)
  | call (client : RpcClient) (heap : Heap) (frames : Nat) (cookie : CookieFile) (requestId : Str)
    (method params : Ref) (requestTimeout : Option Timeout) (maxBodySize : Int)
  | callRaw (client : RpcClient) (heap : Heap) (frames : Nat) (cookie : CookieFile) (requestId : Str)
    (method params : Ref) (jsonrpc : Obj) (requestTimeout : Option Timeout) (maxBodySize : Int)
  | callBatch (client : RpcClient) (heap : Heap) (frames : Nat) (cookie : CookieFile)
    (rpcIds : Nat → Str) (calls : Obj) (requestTimeout : Option Timeout) (maxBodySize : Int)
  | boundCall (client : RpcClient) (heap : Heap) (frames : Nat) (cookie : CookieFile) (requestId : Str)
    (name : Str) (args : List Ref) (kwargs : List (Str × Ref)) (requestTimeout : Option Timeout)
    (maxBodySize : Int)
  | getBin (client : RestClient) (path : Str) (requestTimeout : Option Timeout) (maxBodySize : Int)
  | getJson (client : RestClient) (path : Str) (requestTimeout : Option Timeout) (maxBodySize : Int)

/-- What a use of it answers. -/
inductive Returned
  | exchange (status : Nat) (body : Bytes)
  | value (json : Json)
  | raw (status : Nat) (json : Json)
  | entries (entries : List BatchEntry)
  | octets (body : Bytes)

/-- The transport of a use. -/
def Usage.transport : Usage → Transport
  | .httpRequest _ _ _ _ _ transport => transport
  | .call client .. | .callRaw client .. | .callBatch client .. | .boundCall client .. =>
    client.transport
  | .getBin client .. | .getJson client .. => client.transport

/-- The limit it puts on an answer. -/
def Usage.maxBodySize : Usage → Int
  | .httpRequest _ _ _ _ maxBodySize _ => maxBodySize
  | .call _ _ _ _ _ _ _ _ maxBodySize => maxBodySize
  | .callRaw _ _ _ _ _ _ _ _ _ maxBodySize => maxBodySize
  | .callBatch _ _ _ _ _ _ _ maxBodySize => maxBodySize
  | .boundCall _ _ _ _ _ _ _ _ _ maxBodySize => maxBodySize
  | .getBin _ _ _ maxBodySize | .getJson _ _ _ maxBodySize => maxBodySize

/-- A run whose answer is given another form. -/
def returning {α : Type} (form : α → Returned) (run : Except Exc α × Session) :
    Except Exc Returned × Session :=
  (run.1.map form, run.2)

def Usage.perform (world : World) (session : Session) : Usage → Except Exc Returned × Session
  | .httpRequest url data headers timeout maxBodySize transport =>
    returning (fun answer => .exchange answer.1 answer.2)
      (BitcoinCoreRpc.httpRequest world url data headers timeout maxBodySize transport session)
  | .call client heap frames cookie requestId method params requestTimeout maxBodySize =>
    returning .value (client.call world heap frames cookie requestId method params requestTimeout
      maxBodySize session)
  | .callRaw client heap frames cookie requestId method params jsonrpc requestTimeout maxBodySize =>
    returning (fun answer => .raw answer.1 answer.2) (client.callRaw world heap frames cookie requestId
      method params jsonrpc requestTimeout maxBodySize session)
  | .callBatch client heap frames cookie rpcIds calls requestTimeout maxBodySize =>
    returning .entries (client.callBatch world heap frames cookie rpcIds calls requestTimeout
      maxBodySize session)
  | .boundCall client heap frames cookie requestId name args kwargs requestTimeout maxBodySize =>
    returning .value (client.boundCall world heap frames cookie requestId name args kwargs
      requestTimeout maxBodySize session)
  | .getBin client path requestTimeout maxBodySize =>
    returning .octets (client.getBin world path requestTimeout maxBodySize session)
  | .getJson client path requestTimeout maxBodySize =>
    returning .value (client.getJson world (loads world.py) path requestTimeout maxBodySize session)

/-- The octets of an answer are within a limit. -/
def Returned.WithinLimits (maxBodySize : Int) : Returned → Prop
  | .exchange status body => BitcoinCoreRpc.WithinLimits maxBodySize status body
  | .octets body => BitcoinCoreRpc.WithinLimits maxBodySize 200 body
  | _ => True

theorem Documented.returning {α : Type} {world : World} {transport : Transport} {session : Session}
    {run : Except Exc α × Session} (documented : Documented world transport session run)
    (form : α → Returned) : Documented world transport session (returning form run) :=
  fun e raised => documented e (map_eq_error raised)

/-- However the package is used and whatever is outside it does: what raises is the caller's mistake,
refused before anything is asked of the network and with the session as it was, or a `FetchError`, or
what is outside raised that is no failure of a network; and no body is handed back that is over the
limit of an answer and over the limit of a failure. -/
theorem usage_documented (world : World) (usage : Usage) (session : Session) :
    Documented world usage.transport session (usage.perform world session) ∧
      ∀ answer, (usage.perform world session).1 = .ok answer → answer.WithinLimits usage.maxBodySize := by
  constructor
  · cases usage with
    | httpRequest url data headers timeout maxBodySize transport =>
      exact (httpRequest_documented url data headers timeout maxBodySize transport session).returning _
    | call => exact call_documented.returning _
    | callRaw => exact callRaw_documented.returning _
    | callBatch => exact callBatch_documented.returning _
    | boundCall => exact boundCall_documented.returning _
    | getBin => exact getBin_documented.returning _
    | getJson => exact getJson_documented.returning _
  · intro answer answered
    cases usage with
    | httpRequest url data headers timeout maxBodySize transport =>
      obtain ⟨⟨status, body⟩, sent, rfl⟩ := map_eq_ok answered
      exact httpRequest_withinLimits sent
    | getBin client path requestTimeout maxBodySize =>
      obtain ⟨body, sent, rfl⟩ := map_eq_ok answered
      exact getBin_withinLimits sent
    | _ =>
      obtain ⟨_, _, rfl⟩ := map_eq_ok answered
      trivial

end BitcoinCoreRpc
