/-
This file models the two ways round `call`: `call_raw`, which sends the same request under
a marker of the caller's own and hands back the envelope unread, and `RpcChannel`, whose
attributes are calls.

The envelope is all `call` has, so that a call is the raw call with its envelope
interpreted. A channel's call is `call` with the arguments as one list or one dict, and is
refused before anything is sent where they are both.
-/

import BitcoinCoreRpc.Node

namespace BitcoinCoreRpc

/-! ### The envelope -/

/-- The objects of a request under a marker, or without the member. -/
def Heap.allocRaw (heap : Heap) (marker : Option Str) (requestId : Str) (method : Ref) (params : Obj) :
    Heap × Ref :=
  let base := heap.length
  match marker with
  | some marker =>
    (heap ++ [.str (str "jsonrpc"), .str marker, .str (str "id"), .str requestId,
        .str (str "method"), .str (str "params"), params,
        .dict [(base, base + 1), (base + 2, base + 3), (base + 4, method), (base + 5, base + 6)]],
      base + 7)
  | none =>
    (heap ++ [.str (str "id"), .str requestId, .str (str "method"), .str (str "params"), params,
        .dict [(base, base + 1), (base + 2, method), (base + 3, base + 4)]],
      base + 5)

/-- The marker `call_raw` was given. -/
def jsonrpcMarker (jsonrpc : Obj) : Except Exc (Option Str) :=
  match jsonrpc with
  | .none => .ok none
  | .str marker => .ok (some marker)
  | other => .error (.btcRpcTypeError (str "call_raw jsonrpc marker that is neither a string nor None:" ++
      str " a " ++ other.typeName))

namespace RpcClient

/-- `call_raw`, up to the exchange. -/
def rawRequest (py : Interpreter) (heap : Heap) (frames : Nat) (client : RpcClient) (requestId : Str)
    (method params : Ref) (jsonrpc : Obj) (requestTimeout : Option Timeout) :
    Except Exc (Str × Bytes × Timeout) :=
  match heap.object method with
  | .str name => do
    let marker ← jsonrpcMarker jsonrpc
    let timeout := requestTimeout.getD client.timeout
    assertValidTimeout timeout (str "rpc request_timeout")
    let member ← paramsMember (heap.object params)
    assertJsonParams heap (maxParamsDepth + 1) [] (str "params") none member
    let written := heap.allocRaw marker requestId method member
    let body ← requestBody py written.1 frames (written.1.object written.2)
    return (name, body, timeout)
  | other => .error (.btcRpcTypeError (str "rpc method that is not a string, but a" ++ str " " ++
      other.typeName))

/-- `call_raw` -/
def callRaw (world : World) (heap : Heap) (frames : Nat) (client : RpcClient) (cookie : CookieFile)
    (requestId : Str) (method params : Ref) (jsonrpc : Obj) (requestTimeout : Option Timeout)
    (maxBodySize : Int) (session : Session) : Except Exc (Nat × Json) × Session :=
  match client.rawRequest world.py heap frames requestId method params jsonrpc requestTimeout with
  | .error e => (.error e, session)
  | .ok (name, body, timeout) =>
    match client.authHeader cookie with
    | .error e => (.error e, session)
    | .ok authorization =>
      match httpRequest world client.url (some body) (headers authorization) timeout maxBodySize
          client.transport session with
      | (.error e, session) => (.error e, session)
      | (.ok (status, payload), session) =>
        ((parsedJsonBody (loads world.py) (name ++ str " at " ++ client.url) status payload).map
          (status, ·), session)

end RpcClient

/-- What `call` makes of an envelope: the object `_reply_object` asks for, and `_discriminate`. -/
def interpreted (py : Interpreter) (where_ requestId : Str) : Nat × Json → Except Exc Json
  | (status, .object reply) => discriminate py where_ requestId status reply
  | (status, envelope) =>
    if status ≠ 200 then .error (httpError where_ status)
    else .error (.fetchError (where_ ++ str ": not a json-rpc reply, but a " ++ envelope.typeName))

section Envelope

variable {py : Interpreter} {heap : Heap} {frames : Nat} {client : RpcClient} {requestId : Str}
  {method params : Ref} {requestTimeout : Option Timeout}

/-- Under the marker of `call` the request is the one `call` sends. -/
theorem rawRequest_eq : client.rawRequest py heap frames requestId method params (.str (str "2.0"))
    requestTimeout = client.request py heap frames requestId method params requestTimeout := by
  unfold RpcClient.rawRequest RpcClient.request
  cases heap.object method <;> rfl

theorem result_interpreted (loads : Loads) (name url : Str) (status : Nat) (payload : Bytes) :
    result py loads name url requestId status payload =
      ((parsedJsonBody loads (name ++ str " at " ++ url) status payload).map (status, ·)).bind
        (interpreted py (name ++ str " at " ++ url) requestId) := by
  simp only [result, replyObject]
  generalize parsedJsonBody loads (name ++ str " at " ++ url) status payload = parsed
  cases parsed with
  | error e => rfl
  | ok envelope =>
    cases envelope with
    | object reply => rfl
    | _ =>
      simp only [bind, Except.bind, Except.map, interpreted]
      split_ifs <;> rfl

/-- A call is the raw call with its envelope interpreted. -/
theorem call_of_raw {world : World} {cookie : CookieFile} {maxBodySize : Int} {session : Session} :
    client.call world heap frames cookie requestId method params requestTimeout maxBodySize session =
      (((client.callRaw world heap frames cookie requestId method params (.str (str "2.0"))
          requestTimeout maxBodySize session).1.bind
        (interpreted world.py (heap.methodName method ++ str " at " ++ client.url) requestId)),
      (client.callRaw world heap frames cookie requestId method params (.str (str "2.0")) requestTimeout
        maxBodySize session).2) := by
  simp only [RpcClient.call, RpcClient.callRaw, rawRequest_eq]
  cases built : client.request world.py heap frames requestId method params requestTimeout with
  | error e => rfl
  | ok sent =>
    obtain ⟨name, body, timeout⟩ := sent
    have named : heap.methodName method = name := by
      rw [Heap.methodName, (request_eq_ok built).1]
    simp only [named]
    cases client.authHeader cookie with
    | error e => rfl
    | ok authorization =>
      simp only []
      obtain ⟨_ | ⟨status, payload⟩, after⟩ := httpRequest world client.url (some body)
        (RpcClient.headers authorization) timeout maxBodySize client.transport session
      · rfl
      · simp only [result_interpreted]

/-! ### What a raw request says -/

/-- The tree of a request under a marker, or without the member. -/
def rawParam (marker : Option Str) (requestId method : Str) (params : Param) : Param :=
  match marker with
  | some marker => markedParam marker requestId method params
  | none => .dict [(str "id", .str requestId), (str "method", .str method), (str "params", params)]

theorem allocRaw_unfolds {levels : Nat} {name : Str} (marker : Option Str) (requestId : Str)
    {member : Obj} {value : Param} (named : heap.object method = .str name)
    (unfolds : heap.unfold levels member = some value) :
    ∃ more root, heap.allocRaw marker requestId method member = (heap ++ more, root) ∧
      (heap ++ more).unfold (levels + 1) ((heap ++ more).object root) =
        some (rawParam marker requestId name value) := by
  cases marker with
  | some marker => exact ⟨_, _, rfl, markedObjects_unfold marker requestId named unfolds rfl⟩
  | none =>
    refine ⟨_, _, rfl, ?_⟩
    obtain ⟨levels, rfl⟩ : ∃ fewer, levels = fewer + 1 := by
      cases levels with
      | zero => cases unfolds
      | succ fewer => exact ⟨fewer, rfl⟩
    rw [object_new]
    have distinct : [str "id", str "method", str "params"].Nodup := by decide +kernel
    refine unfold_dict distinct (.cons ⟨?_, ?_⟩ (.cons ⟨?_, ?_⟩ (.cons ⟨?_, ?_⟩ .nil)))
    · exact object_new heap _ 0
    · rw [object_new]
      rfl
    · rw [object_new]
      rfl
    · rw [object_append _ (by rw [named]; rintro ⟨⟩), named]
      rfl
    · rw [object_new]
      rfl
    · rw [object_new]
      exact unfold_append _ unfolds

/-- What an envelope says: the members of a request, the marker as it came. -/
def Says (marker : Option Str) (requestId method : Str) (params : Param) (envelope : Json) : Prop :=
  ∃ members params', envelope = .object members ∧
    members.lookup (str "jsonrpc") = marker.map .string ∧
    members.lookup (str "id") = some (.string requestId) ∧
    members.lookup (str "method") = some (.string method) ∧
    members.lookup (str "params") = some params' ∧ Equal params params'

theorem says_of_equal {marker : Option Str} {name : Str} {value : Param} {read : Json}
    (equal : Equal (rawParam marker requestId name value) read) :
    Says marker requestId name value read := by
  cases marker with
  | some marker =>
    cases equal with
    | dict _ members names all =>
      obtain ⟨⟨_, version⟩, ⟨_, ours⟩, ⟨_, asked⟩, ⟨_, given⟩, rfl⟩ :=
        List.length_eq_four.mp (by simpa using (congrArg List.length names).symm)
      simp only [List.map_cons, List.map_nil, List.cons.injEq, and_true] at names
      obtain ⟨rfl, rfl, rfl, rfl⟩ := names
      simp only [List.map_cons, List.map_nil, List.forall₂_cons, List.forall₂_nil_left_iff,
        and_true] at all
      obtain ⟨⟨⟩, ⟨⟩, ⟨⟩, last⟩ := all
      exact ⟨_, given, rfl, rfl, rfl, rfl, rfl, last⟩
  | none =>
    cases equal with
    | dict _ members names all =>
      obtain ⟨⟨_, ours⟩, ⟨_, asked⟩, ⟨_, given⟩, rfl⟩ :=
        List.length_eq_three.mp (by simpa using (congrArg List.length names).symm)
      simp only [List.map_cons, List.map_nil, List.cons.injEq, and_true] at names
      obtain ⟨rfl, rfl, rfl⟩ := names
      simp only [List.map_cons, List.map_nil, List.forall₂_cons, List.forall₂_nil_left_iff,
        and_true] at all
      obtain ⟨⟨⟩, ⟨⟩, last⟩ := all
      exact ⟨_, given, rfl, rfl, rfl, rfl, rfl, last⟩

theorem rawParam_restorable {theirs : Interpreter} {marker : Option Str} {name : Str} {value : Param}
    (marked : ∀ text ∈ marker, Whole text) (ids : Whole requestId) (named : Whole name)
    (restorable : value.Every (Restorable theirs)) :
    (rawParam marker requestId name value).Every (Restorable theirs) := by
  have request := @requestParam_restorable theirs requestId name value ids named restorable
  cases marker with
  | some marker => exact ⟨request.1, marked marker rfl, request.2.2⟩
  | none => exact request.2.2

/-- The body of a raw request says what it was asked to. -/
theorem rawRequest_says {theirs : Interpreter} {jsonrpc : Obj} {marker : Option Str} {name : Str}
    {value : Param} {body : Bytes} {timeout : Timeout} (reads : theirs.Reads py)
    (given : Given theirs heap params value) (ids : Whole requestId) (named : Whole name)
    (marks : jsonrpcMarker jsonrpc = .ok marker) (marked : ∀ text ∈ marker, Whole text)
    (built : client.rawRequest py heap frames requestId method params jsonrpc requestTimeout =
      .ok (name, body, timeout)) :
    ∃ envelope, loads theirs body = .ok envelope ∧ Says marker requestId name value envelope := by
  obtain ⟨restorable, member, depth, shaped, unfolds⟩ := given
  unfold RpcClient.rawRequest at built
  split at built
  · rename_i text found
    obtain ⟨marker', marks', afterMarker⟩ := bind_eq_ok built
    rw [marks] at marks'
    cases marks'
    obtain ⟨_, _, afterTimed⟩ := bind_eq_ok afterMarker
    obtain ⟨member', shaped', afterShaped⟩ := bind_eq_ok afterTimed
    rw [shaped] at shaped'
    cases shaped'
    obtain ⟨_, walked, afterWalked⟩ := bind_eq_ok afterShaped
    obtain ⟨body', written, ended⟩ := bind_eq_ok afterWalked
    cases ended
    have shallow := unfold_carried (assertJsonParams_sound walked) unfolds
    obtain ⟨more, root, alloc, asTree⟩ := allocRaw_unfolds marker requestId found shallow
    rw [alloc] at written
    obtain ⟨envelope, parsed, equal⟩ := requestBody_read reads.takes
      ((Nat.le_succ _).trans reads.nesting) asTree
      (rawParam_restorable marked ids named restorable) written
    exact ⟨envelope, parsed, says_of_equal equal⟩
  · cases built

end Envelope

/-- `call_raw` hands back what came, and says what it was asked to. For every client, world and
request: `call` is the raw call under its own marker with the envelope interpreted, the same request
sent and the same raised; the body of a raw request under any marker, or under none, is read as an
object with that marker, the id, the method and parameters equal to the caller's; and whatever a body
that came back parses as is answered beside its status, whether or not it is a reply. -/
theorem callRaw_exact (world : World) (theirs : Interpreter) (heap : Heap) (frames : Nat)
    (client : RpcClient) (cookie : CookieFile) (requestId : Str) (method params : Ref)
    (requestTimeout : Option Timeout) (maxBodySize : Int) (session : Session) :
    client.call world heap frames cookie requestId method params requestTimeout maxBodySize session =
      (((client.callRaw world heap frames cookie requestId method params (.str (str "2.0"))
          requestTimeout maxBodySize session).1.bind
        (interpreted world.py (heap.methodName method ++ str " at " ++ client.url) requestId)),
      (client.callRaw world heap frames cookie requestId method params (.str (str "2.0")) requestTimeout
        maxBodySize session).2) ∧
    ∀ jsonrpc marker name body timeout, jsonrpcMarker jsonrpc = .ok marker →
      client.rawRequest world.py heap frames requestId method params jsonrpc requestTimeout =
        .ok (name, body, timeout) →
      (∀ value, theirs.Reads world.py → Given theirs heap params value → Whole requestId → Whole name →
        (∀ text ∈ marker, Whole text) →
        ∃ envelope, loads theirs body = .ok envelope ∧ Says marker requestId name value envelope) ∧
      ∀ authorization status payload envelope after, client.authHeader cookie = .ok authorization →
        httpRequest world client.url (some body) (RpcClient.headers authorization) timeout maxBodySize
          client.transport session = (.ok (status, payload), after) →
        loads world.py payload = .ok envelope →
        client.callRaw world heap frames cookie requestId method params jsonrpc requestTimeout
          maxBodySize session = (.ok (status, envelope), after) := by
  refine ⟨call_of_raw, fun jsonrpc marker name body timeout marks built =>
    ⟨fun value reads given ids named marked =>
      rawRequest_says reads given ids named marks marked built, ?_⟩⟩
  intro authorization status payload envelope after authorized carried parsed
  simp only [RpcClient.callRaw, built, authorized, carried, parsedJsonBody, parsed]
  rfl

/-- What a raw request without a marker sends. -/
def bareRequest : Bytes :=
  str "\x7b\"id\": \"a\", \"method\": \"getblockcount\", \"params\": []\x7d"

/-- A raw request without a marker says none, and the 500 it is answered with comes back beside the
envelope. -/
theorem callRaw_exact_bare :
    (∃ envelope, loads nodeReader bareRequest = .ok envelope ∧
      Says none (str "a") (str "getblockcount") (.list []) envelope) ∧
    ∃ envelope after, asking.callRaw refusing twoCalls 50 .absent (str "a") 0 1 .none none 100
      Session.new = (.ok (500, envelope), after) := by
  have plain : Whole (str "a") ∧ Whole (str "getblockcount") := by
    unfold Whole Utf8.IsScalar Utf8.Admits
    decide +kernel
  have timed : assertValidTimeout asking.timeout (str "rpc request_timeout") = .ok () :=
    if_pos asking_waits
  have written : requestBody cpython (twoCalls.allocRaw none (str "a") 0 (.list [])).1 50
      ((twoCalls.allocRaw none (str "a") 0 (.list [])).1.object
        (twoCalls.allocRaw none (str "a") 0 (.list [])).2) = .ok bareRequest := by decide +kernel
  have built : asking.rawRequest cpython twoCalls 50 (str "a") 0 1 .none none =
      .ok (str "getblockcount", bareRequest, asking.timeout) := by
    show (assertValidTimeout asking.timeout (str "rpc request_timeout") >>= fun _ =>
      requestBody cpython (twoCalls.allocRaw none (str "a") 0 (.list [])).1 50
        ((twoCalls.allocRaw none (str "a") 0 (.list [])).1.object
          (twoCalls.allocRaw none (str "a") 0 (.list [])).2) >>= fun body =>
        .ok (str "getblockcount", body, asking.timeout)) = _
    rw [timed, written]
    rfl
  have exact_ := (callRaw_exact refusing nodeReader twoCalls 50 asking .absent (str "a") 0 1 none 100
    Session.new).2 .none none _ _ _ rfl built
  exact ⟨exact_.1 (.list []) nodeReader_reads ⟨trivial, .list [], 1, rfl, rfl⟩ plain.1 plain.2
    (by rintro _ ⟨⟩), _, _, exact_.2 (str "Basic dTpw") 500 startingUpReply _ _ (by decide +kernel)
      (Prod.ext (by decide +kernel) rfl) startingUpReply_parsed⟩

/-! ### A channel -/

/-- What `RpcChannel.__getattr__` binds a name that is no attribute to. -/
def boundMethod (name : Str) : Option Str :=
  if name.head? = some 0x5F then none else some name

/-- What an attribute of a channel is. -/
inductive ChannelAttribute
  /-- the client it wraps -/
  | client
  /-- a call of a method -/
  | boundCall (method : Str)
  /-- a name of Python's own, or an `AttributeError` -/
  | hidden
deriving DecidableEq

/-- An attribute of a channel: the slot `client`, which is found before `__getattr__` is asked, and
what that makes of any other name. -/
def channelAttribute (name : Str) : ChannelAttribute :=
  if name = str "client" then .client
  else match boundMethod name with
    | some method => .boundCall method
    | none => .hidden

/-- The keywords a bound call has besides the two it keeps for itself. -/
structure Kwargs where
  named : List (Str × Ref)
  distinct : (named.map Prod.fst).Nodup
  free : ∀ name ∈ named.map Prod.fst, name ≠ str "request_timeout" ∧ name ≠ str "max_body_size"

/-- The objects of a bound call: its method, and its arguments as one list or one dict. -/
def Heap.allocArguments (heap : Heap) (method : Str) (args : List Ref) (kwargs : List (Str × Ref)) :
    Heap × Ref × Ref :=
  let base := heap.length
  if kwargs ≠ [] then
    (heap ++ .str method ::
      .dict (kwargs.zipIdx.map fun ((_, item), index) => (base + (index + 2), item)) :: kwargs.map fun (name, _) => .str name, base, base + 1)
  else if args ≠ [] then (heap ++ [.str method, .list args], base, base + 1)
  else (heap ++ [.str method, .none], base, base + 1)

/-- `bound_call` -/
def RpcClient.boundCall (world : World) (heap : Heap) (frames : Nat) (client : RpcClient)
    (cookie : CookieFile) (requestId method : Str) (args : List Ref) (kwargs : List (Str × Ref))
    (requestTimeout : Option Timeout) (maxBodySize : Int) (session : Session) :
    Except Exc Json × Session :=
  if args ≠ [] ∧ kwargs ≠ [] then
    (.error (.btcRpcValueError (method ++ str ": positional and named arguments together," ++
      str " json-rpc params being one shape or the other")), session)
  else
    let (heap, name, params) := heap.allocArguments method args kwargs
    client.call world heap frames cookie requestId name params requestTimeout maxBodySize session

/-- The call of an attribute of a channel, `none` for one that is no call of the node. -/
def RpcClient.channelCall (world : World) (heap : Heap) (frames : Nat) (client : RpcClient)
    (cookie : CookieFile) (requestId name : Str) (args : List Ref) (kwargs : Kwargs)
    (requestTimeout : Option Timeout) (maxBodySize : Int) (session : Session) :
    Option (Except Exc Json × Session) :=
  match channelAttribute name with
  | .boundCall method => some (client.boundCall world heap frames cookie requestId method args
      kwargs.named requestTimeout maxBodySize session)
  | .client | .hidden => none

/-- The parameters a bound call has, as a tree. -/
def argumentsParam (positional : List Param) (named : List (Str × Param)) : Param :=
  if named ≠ [] then .dict named else .list positional

section Channel

variable {theirs : Interpreter} {heap : Heap} {args : List Ref} {kwargs : List (Str × Ref)}
  {positional : List Param} {named : List (Str × Param)} {depth : Nat}

/-- An argument unfolds to a tree whose leaves the peer restores. -/
def Argument (theirs : Interpreter) (heap : Heap) (depth : Nat) (ref : Ref) (value : Param) : Prop :=
  heap.unfold depth (heap.object ref) = some value ∧ value.Every (Restorable theirs)

theorem forall₂_zipIdx {α β : Type} {numbered : α × Nat → β → Prop} {plain : α → β → Prop}
    {firsts : List α} {seconds : List β} (all : List.Forall₂ plain firsts seconds) (start : Nat)
    (agree : ∀ index first, firsts[index]? = some first → ∀ second, plain first second →
      numbered (first, start + index) second) :
    List.Forall₂ numbered (firsts.zipIdx start) seconds := by
  induction all generalizing start with
  | nil => exact .nil
  | cons head _ inductionHypothesis =>
    rw [List.zipIdx_cons]
    refine .cons (agree 0 _ rfl _ head) (inductionHypothesis (start + 1) fun index first here => ?_)
    rw [Nat.add_right_comm]
    exact agree (index + 1) first here

theorem everyItem_of_arguments (each : List.Forall₂ (Argument theirs heap depth) args positional) :
    EveryItem (Restorable theirs) positional := by
  induction each with
  | nil => exact trivial
  | cons head _ inductionHypothesis => exact ⟨head.2, inductionHypothesis⟩

theorem everyMember_of_arguments (eachNamed : List.Forall₂ (fun arg value => arg.1 = value.1 ∧
      Argument theirs heap depth arg.2 value.2) kwargs named)
    (whole : ∀ name ∈ kwargs.map Prod.fst, Whole name) : EveryMember (Restorable theirs) named := by
  induction eachNamed with
  | nil => exact trivial
  | cons head _ inductionHypothesis =>
    rw [List.map_cons, List.forall_mem_cons] at whole
    exact ⟨head.1 ▸ whole.1, head.2.2, inductionHypothesis whole.2⟩

/-- The arguments of a bound call are given as the list or the dict it makes of them. -/
theorem allocArguments_given (method : Str)
    (each : List.Forall₂ (Argument theirs heap depth) args positional)
    (eachNamed : List.Forall₂ (fun arg value => arg.1 = value.1 ∧
      Argument theirs heap depth arg.2 value.2) kwargs named)
    (one : args = [] ∨ kwargs = [])
    (distinct : (kwargs.map Prod.fst).Nodup) (whole : ∀ name ∈ kwargs.map Prod.fst, Whole name) :
    (heap.allocArguments method args kwargs).1.object (heap.allocArguments method args kwargs).2.1 =
      .str method ∧
    Given theirs (heap.allocArguments method args kwargs).1
      (heap.allocArguments method args kwargs).2.2 (argumentsParam positional named) := by
  have sameNames := forall₂_map_eq (eachNamed.imp fun _ _ here => here.1)
  unfold Heap.allocArguments argumentsParam
  by_cases asDict : kwargs = []
  · subst asDict
    cases eachNamed
    simp only [ne_eq, not_true_eq_false, if_false]
    by_cases empty : args = []
    · subst empty
      cases each
      refine ⟨object_new heap _ 0, trivial, .list [], 1, ?_, rfl⟩
      rw [if_neg (not_not.mpr rfl), object_new]
      rfl
    · rw [if_pos empty]
      refine ⟨object_new heap _ 0, everyItem_of_arguments each, .list args, depth + 1, ?_, ?_⟩
      · rw [object_new]
        rfl
      · refine Option.map_eq_some_iff.mpr ⟨positional, mapM_of_forall₂ ?_, rfl⟩
        exact each.imp fun _ _ here => unfold_object_append _ here.1
  · have present : named ≠ [] := by
      rintro rfl
      cases eachNamed
      exact asDict rfl
    rw [if_pos asDict, if_pos present]
    refine ⟨object_new heap _ 0, everyMember_of_arguments eachNamed whole, _, depth + 1,
      by rw [object_new]; rfl, unfold_dict (sameNames ▸ distinct) ?_⟩
    rw [List.forall₂_map_left_iff]
    refine forall₂_zipIdx eachNamed 0 fun index arg here value same => ⟨?_, ?_⟩
    · rw [object_new, ← same.1, Nat.zero_add]
      rw [List.getD_cons_succ, List.getD_cons_succ, List.getD_eq_getElem?_getD, List.getElem?_map, here]
      rfl
    · exact unfold_object_append _ same.2.1

end Channel

theorem channelAttribute_hidden {name : Str} (underscored : name.head? = some 0x5F) :
    channelAttribute name = .hidden := by
  have other : name ≠ str "client" := by
    rintro rfl
    exact absurd underscored (by decide)
  rw [channelAttribute, if_neg other, boundMethod, if_pos underscored]

theorem channelAttribute_boundCall {name : Str} (shown : name.head? ≠ some 0x5F)
    (other : name ≠ str "client") : channelAttribute name = .boundCall name := by
  rw [channelAttribute, if_neg other, boundMethod, if_neg shown]

/-- A channel's call answers what the node did with the arguments. The attribute `client` is the
client, and a name that starts with an underscore is no call. For any other, positional and named
arguments together are refused with nothing sent; and the rest is read by the node as one call of the
method of that name, with the arguments in order as an array or under their names as an object, and
answers what the node did. -/
theorem channel_served {State : Type} (node : Node State) (state : State) (world : World)
    (theirs : Interpreter) (heap : Heap) (frames : Nat) (client : RpcClient) (cookie : CookieFile)
    (requestId name : Str) (args : List Ref) (kwargs : Kwargs) (depth : Nat)
    (positional : List Param) (named : List (Str × Param)) (requestTimeout : Option Timeout)
    (maxBodySize : Int) (session : Session) (reads : theirs.Reads world.py)
    (each : List.Forall₂ (Argument theirs heap depth) args positional)
    (eachNamed : List.Forall₂ (fun arg value => arg.1 = value.1 ∧
      Argument theirs heap depth arg.2 value.2) kwargs.named named)
    (whole : ∀ name ∈ kwargs.named.map Prod.fst, Whole name)
    (ids : Whole requestId) (spelled : Whole name) :
    (name = str "client" → channelAttribute name = .client ∧
      client.channelCall world heap frames cookie requestId name args kwargs requestTimeout maxBodySize
        session = none) ∧
    (name.head? = some 0x5F → channelAttribute name = .hidden ∧
      client.channelCall world heap frames cookie requestId name args kwargs requestTimeout maxBodySize
        session = none) ∧
    (name.head? ≠ some 0x5F → name ≠ str "client" →
      (args ≠ [] → kwargs.named ≠ [] → ∃ message,
        client.channelCall world heap frames cookie requestId name args kwargs requestTimeout maxBodySize
          session = some (.error (.btcRpcValueError message), session)) ∧
      (args = [] ∨ kwargs.named = [] → ∀ objects body timeout authorization status payload after,
        heap.allocArguments name args kwargs.named = objects →
        client.request world.py objects.1 frames requestId objects.2.1 objects.2.2 requestTimeout =
          .ok (name, body, timeout) →
        client.authHeader cookie = .ok authorization →
        httpRequest world client.url (some body) (RpcClient.headers authorization) timeout maxBodySize
          client.transport session = (.ok (status, payload), after) →
        node.Serves theirs world.py state body status payload →
        ∃ request params', loads theirs body = .ok request ∧
          readRequest request = some ⟨requestId, name, params'⟩ ∧
          Equal (argumentsParam positional named) params' ∧
          client.channelCall world heap frames cookie requestId name args kwargs requestTimeout
            maxBodySize session =
              some (told (name ++ str " at " ++ client.url) (node state name params').1, after))) := by
  refine ⟨?_, fun underscored => ?_, fun shown other => ⟨fun some_args some_kwargs => ?_, ?_⟩⟩
  · rintro rfl
    exact ⟨rfl, rfl⟩
  · rw [RpcClient.channelCall, channelAttribute_hidden underscored]
    exact ⟨rfl, rfl⟩
  · rw [RpcClient.channelCall, channelAttribute_boundCall shown other]
    dsimp only
    rw [RpcClient.boundCall, if_pos ⟨some_args, some_kwargs⟩]
    exact ⟨_, rfl⟩
  · rintro one objects body timeout authorization status payload after rfl built authorized carried serves
    obtain ⟨_, given⟩ := allocArguments_given name each eachNamed one kwargs.distinct whole
    have apart : ¬ (args ≠ [] ∧ kwargs.named ≠ []) := fun both => one.elim both.1 both.2
    obtain ⟨request, params', parsed, read, same, called⟩ :=
      call_of_served reads given ids spelled built authorized carried serves
    refine ⟨request, params', parsed, read, same, ?_⟩
    rw [RpcClient.channelCall, channelAttribute_boundCall shown other]
    dsimp only
    rw [RpcClient.boundCall, if_neg apart]
    exact congrArg some called

/-- What `channel.getblockhash(height=7)` sends. -/
def hashRequest : Bytes :=
  str "\x7b\"jsonrpc\": \"2.0\", \"id\": \"a\", \"method\": \"getblockhash\"," ++
    str " \"params\": \x7b\"height\": 7\x7d\x7d"

/-- The keyword of `channel.getblockhash(height=7)`. -/
def heightKeyword : Kwargs where
  named := [(str "height", 0)]
  distinct := List.nodup_singleton _
  free := by decide

/-- A named argument reaches the node under its name, and the node's refusal the caller. -/
theorem channel_served_height :
    (∃ request params', loads nodeReader hashRequest = .ok request ∧
      readRequest request = some ⟨str "a", str "getblockhash", params'⟩ ∧
      Equal (.dict [(str "height", .int 7)]) params') ∧
    ∃ after, asking.channelCall refusing [.int 7] 50 .absent (str "a") (str "getblockhash") []
        heightKeyword none 100 Session.new =
      some (.error (.rpcError (str "getblockhash at http://localhost:8332/: loading") (-28) .null),
        after) := by
  have received : loads nodeReader hashRequest = .ok (.object [(str "jsonrpc", .string (str "2.0")),
      (str "id", .string (str "a")), (str "method", .string (str "getblockhash")),
      (str "params", .object [(str "height", .int 7)])]) := by decide +kernel
  have serves : startingUp.Serves nodeReader cpython () hashRequest 500 startingUpReply := by
    intro request ask parsed read
    rw [received] at parsed
    cases parsed
    cases read
    exact ⟨_, startingUpReply_parsed, .legacyError rfl rfl rfl ⟨_, rfl, rfl, rfl, rfl⟩⟩
  have plain : Whole (str "a") ∧ Whole (str "getblockhash") ∧ Whole (str "height") := by
    unfold Whole Utf8.IsScalar Utf8.Admits
    decide +kernel
  have served := (channel_served startingUp () refusing nodeReader [.int 7] 50 asking .absent (str "a")
    (str "getblockhash") [] heightKeyword 1 [] [(str "height", .int 7)] none 100 Session.new
    nodeReader_reads .nil (.cons ⟨rfl, rfl, trivial⟩ .nil)
    (by simpa [heightKeyword] using plain.2.2) plain.1 plain.2.1).2.2 (by decide +kernel)
    (by decide +kernel)
  obtain ⟨request, params', parsed, read, same, called⟩ := served.2 (.inl rfl) _ hashRequest asking.timeout
    (str "Basic dTpw") 500 startingUpReply _ rfl
    (request_of_written rfl asking_waits rfl (by decide +kernel) (by decide +kernel)) (by decide +kernel)
    (Prod.ext (by decide +kernel) rfl) serves
  exact ⟨⟨request, params', parsed, read, same⟩, _, called⟩

end BitcoinCoreRpc
