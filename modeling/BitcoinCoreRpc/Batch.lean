/-
This file models `call_batch`: the request of several members, the replies told apart
by their id alone, and the list of what each member's reply is read as.

The proofs rest on one counting fact: as many replies as requests, each answering an
id that was sent and no two the same one, answer every request. From it the lookups
that align the replies never miss, whatever order the replies came in.
-/

import BitcoinCoreRpc.Request
import BitcoinCoreRpc.Reply

namespace BitcoinCoreRpc

/-! ### The request -/

/-- `_batch_pairs` -/
def batchPairs (heap : Heap) (calls : Obj) : Except Exc (List (Ref × Ref)) :=
  let noPairs := .error (.btcRpcTypeError (str "call_batch calls is a " ++ calls.typeName ++
    str " and not" ++ str " an iterable of (method, params) pairs"))
  let read (members : List Ref) : Except Exc (List (Ref × Ref)) :=
    members.zipIdx.mapM fun (member, index) =>
      let refusal (shape : Str) : Except Exc (Ref × Ref) :=
        .error (.btcRpcTypeError (str "call_batch member " ++ natText index ++ str ": " ++ shape ++
          str " and not a (method, params)" ++ str " pair"))
      let shape := str "a " ++ (heap.object member).typeName
      match heap.object member with
      | .list [method, params] | .tuple [method, params] | .sequence _ [method, params] =>
        .ok (method, params)
      | .list items | .tuple items | .sequence _ items =>
        refusal (shape ++ str " of length " ++ natText items.length)
      | _ => refusal shape
  match calls with
  | .list members | .tuple members | .sequence _ members | .iterable _ members => read members
  | .dict members | .mapping _ members => read (members.map Prod.fst)
  | _ => noPairs

/-- What iterating over an object brings: the items of a sequence, the keys of a mapping. -/
def Obj.iterated : Obj → Option (List Ref)
  | .list items | .tuple items | .sequence _ items | .iterable _ items => some items
  | .dict members | .mapping _ members => some (members.map Prod.fst)
  | _ => Option.none

/-- A member is a sequence of two: a method and its parameters. -/
def Heap.IsPair (heap : Heap) (member : Ref) (pair : Ref × Ref) : Prop :=
  heap.object member = .list [pair.1, pair.2] ∨ heap.object member = .tuple [pair.1, pair.2] ∨
    ∃ typeName, heap.object member = .sequence typeName [pair.1, pair.2]

/-- The pairs of a batch are its members, in order. -/
theorem batchPairs_eq_ok {heap : Heap} {calls : Obj} {pairs : List (Ref × Ref)}
    (paired : batchPairs heap calls = .ok pairs) :
    ∃ members, calls.iterated = some members ∧ List.Forall₂ heap.IsPair members pairs := by
  have read {members : List Ref} {f : Ref × Nat → Except Exc (Ref × Ref)}
      (made : members.zipIdx.mapM f = .ok pairs)
      (each : ∀ slot pair, f slot = .ok pair → heap.IsPair slot.1 pair) :
      List.Forall₂ heap.IsPair members pairs := by
    have all := (mapM_eq_ok.mp made).imp fun slot pair here => each slot pair here
    have members_ := List.zipIdx_map_fst 0 members
    rwa [← members_, List.forall₂_map_left_iff]
  have member {object : Obj} {pair : Ref × Ref} {long : List Ref → Exc} {shapeless : Exc}
      (here : (match object with
        | .list [method, params] | .tuple [method, params] | .sequence _ [method, params] =>
          .ok (method, params)
        | .list items | .tuple items | .sequence _ items => .error (long items)
        | _ => .error shapeless : Except Exc (Ref × Ref)) = .ok pair) :
      object = .list [pair.1, pair.2] ∨ object = .tuple [pair.1, pair.2] ∨
        ∃ typeName, object = .sequence typeName [pair.1, pair.2] := by
    split at here
    · cases here
      exact .inl rfl
    · cases here
      exact .inr (.inl rfl)
    · cases here
      exact .inr (.inr ⟨_, rfl⟩)
    all_goals cases here
  unfold batchPairs at paired
  cases calls with
  | list items | tuple items | sequence _ items | iterable _ items =>
    exact ⟨items, rfl, read paired fun slot pair here => member here⟩
  | dict members | mapping _ members =>
    exact ⟨members.map Prod.fst, rfl, read paired fun slot pair here => member here⟩
  | _ => cases paired

/-- What a request names its method. -/
def Heap.methodName (heap : Heap) (method : Ref) : Str :=
  match heap.object method with
  | .str name => name
  | other => other.typeName

/-- A request object among the others of the heap, its members new and its `method` the
caller's. -/
def Heap.allocRequest (heap : Heap) (requestId : Str) (method : Ref) (params : Obj) : Heap × Ref :=
  let base := heap.length
  (heap ++ [.str (str "jsonrpc"), .str (str "2.0"), .str (str "id"), .str requestId,
      .str (str "method"), .str (str "params"), params,
      .dict [(base, base + 1), (base + 2, base + 3), (base + 4, method), (base + 5, base + 6)]],
    base + 7)

/-- `_batch_member_request` -/
def batchMemberRequest (heap : Heap) (index : Nat) (method params : Ref) (requestId : Str) :
    Except Exc (Heap × Ref) :=
  let where_ := str "call_batch member " ++ natText index
  match heap.object method with
  | .str _ =>
    let built := do
      let member ← paramsMember (heap.object params)
      assertJsonParams heap (maxParamsDepth + 1) [] (str "params") none member
      return member
    match built with
    | .ok member => .ok (heap.allocRequest requestId method member)
    | .error (.btcRpcTypeError message) => .error (.btcRpcTypeError (where_ ++ str ": " ++ message))
    | .error (.btcRpcValueError message) =>
      .error (.btcRpcValueError (where_ ++ str ": " ++ message))
    | .error e => .error e
  | other => .error (.btcRpcTypeError (where_ ++ str ": rpc method that is not a string, but a " ++
      other.typeName))

/-- The members' requests, in order. -/
def batchMembers (heap : Heap) (requestIds : List Str) (pairs : List (Ref × Ref)) :
    Except Exc (Heap × List Ref) :=
  (pairs.zip requestIds).zipIdx.foldlM (fun (heap, members) (((method, params), requestId), index) =>
    do
      let (heap, member) ← batchMemberRequest heap index method params requestId
      return (heap, members ++ [member])) (heap, [])

/-- What a request is sent as, a value the encoder refuses reported as the caller's. -/
def requestBody (py : Interpreter) (heap : Heap) (frames : Nat) (request : Obj) :
    Except Exc Bytes :=
  match requestJson py heap frames request with
  | .ok text => .ok (Utf8.encode text)
  | .error e =>
    if e.isValueError || e.isRecursionError then
      .error (.btcRpcValueError (str "rpc params json cannot carry: " ++ e.message))
    else .error e

/-- `call_batch`, up to the exchange: the members' methods, the ids drawn for them and the body
that is sent. -/
def batchRequest (py : Interpreter) (heap : Heap) (frames : Nat) (rpcIds : Nat → Str)
    (validTimeout : Except Exc Unit) (calls : Obj) : Except Exc (List Str × List Str × Bytes) := do
  let pairs ← batchPairs heap calls
  if pairs = [] then
    .error (.btcRpcValueError (str "call_batch with no members: JSON-RPC 2.0 section 6 has" ++
      str " no shape for an empty batch"))
  else do
    validTimeout
    let requestIds := (List.range pairs.length).map rpcIds
    let (requests, members) ← batchMembers heap requestIds pairs
    let body ← requestBody py requests frames (.list members)
    let methods := pairs.map fun pair => heap.methodName pair.1
    return (methods, requestIds, body)

/-! ### The replies -/

/-- `_batch_reply_array` -/
def batchReplyArray (loads : Loads) (where_ : Str) (status : Nat) (payload : Bytes) :
    Except Exc (List Json) := do
  let reply ← parsedJsonBody loads where_ status payload
  match reply with
  | .array replies => .ok replies
  | _ => .error (.fetchError (where_ ++ str ": not a json-rpc batch reply, but a " ++
      reply.typeName))

/-- The replies of a batch by the id each answers. -/
abbrev ById := List (Str × Dict)

/-- One reply entered under its id. -/
def correlateReply (py : Interpreter) (where_ : Str) (requestIds : List Str) (byId : ById)
    (reply : Json) : Except Exc ById :=
  match reply with
  | .object members =>
    let replyId := Dict.get members (str "id")
    let foreign := .error (.fetchError (where_ ++ str ": a reply answering id " ++
      py.repr replyId ++ str ", which nobody sent"))
    match replyId with
    | .string replyId' =>
      if replyId' ∉ requestIds then foreign
      else if (byId.lookup replyId').isSome then
        .error (.fetchError (where_ ++ str ": two replies answering the same id " ++
          py.repr replyId))
      else .ok (byId ++ [(replyId', members)])
    | _ => foreign
  | other => .error (.fetchError (where_ ++ str ": a batch reply member that is not a json" ++
      str " object, but a " ++ other.typeName))

/-- `_correlated_batch_replies` -/
def correlatedBatchReplies (py : Interpreter) (where_ : Str) (requestIds : List Str)
    (replies : List Json) : Except Exc ById :=
  if replies.length ≠ requestIds.length then
    .error (.fetchError (where_ ++ str ": " ++ natText replies.length ++ str " replies for " ++
      natText requestIds.length ++ str " requests"))
  else replies.foldlM (correlateReply py where_ requestIds) []

/-- What the list `call_batch` answers holds for a member: its result, or its rpc error as a
value. -/
inductive BatchEntry
  | result (value : Json)
  | rpcError (message : Str) (code : Int) (data : Json)
deriving DecidableEq

/-- One member's reply, found by its id and read as a lone reply is. -/
def batchEntry (py : Interpreter) (url : Str) (byId : ById) (method : Str) (index : Nat)
    (requestId : Str) : Except Exc BatchEntry :=
  let where_ := method ++ str " at " ++ url ++ str " (call_batch member " ++ natText index ++ str ")"
  match byId.lookup requestId with
  | none => .error (.keyError requestId)
  | some reply =>
    match discriminate py where_ requestId 200 reply with
    | .ok value => .ok (.result value)
    | .error (.rpcError message code data) => .ok (.rpcError message code data)
    | .error e => .error e

/-- The entries of the members, in order. -/
def batchEntries (py : Interpreter) (url : Str) (byId : ById) (methods requestIds : List Str) :
    Except Exc (List BatchEntry) :=
  (methods.zip requestIds).zipIdx.mapM fun ((method, requestId), index) =>
    batchEntry py url byId method index requestId

/-- `call_batch`, past the exchange: the reply array read for the members sent. -/
def readBatch (py : Interpreter) (url : Str) (methods requestIds : List Str)
    (replies : List Json) : Except Exc (List BatchEntry) := do
  let byId ← correlatedBatchReplies py (str "call_batch at " ++ url) requestIds replies
  batchEntries py url byId methods requestIds

/-- `call_batch` of a client at `url`, with the ids it draws, the verdict on its timeout and
`http_request` for the exchange. -/
def callBatch (py : Interpreter) (loads : Loads) (heap : Heap) (frames : Nat) (url : Str)
    (rpcIds : Nat → Str) (validTimeout : Except Exc Unit)
    (httpRequest : Bytes → Except Exc (Nat × Bytes)) (calls : Obj) :
    Except Exc (List BatchEntry) := do
  let (methods, requestIds, body) ← batchRequest py heap frames rpcIds validTimeout calls
  let (status, payload) ← httpRequest body
  let where_ := str "call_batch at " ++ url
  if status ≠ 200 then .error (httpError where_ status)
  else do
    let replies ← batchReplyArray loads where_ status payload
    readBatch py url methods requestIds replies

/-! ### The replies of a batch tell its members apart -/

/-- A reply object with a string for its id, under that id. -/
def replyKey : Json → Option (Str × Dict)
  | .object members =>
    match Dict.get members (str "id") with
    | .string replyId => some (replyId, members)
    | _ => none
  | _ => none

/-- The replies are objects, and no two answer one id and each answers one that was sent. -/
def Correlates (requestIds : List Str) (replies : List Json) (byId : ById) : Prop :=
  replies.map replyKey = byId.map some ∧ (byId.map Prod.fst).Nodup ∧
    ∀ replyId ∈ byId.map Prod.fst, replyId ∈ requestIds

theorem replyKey_eq_some {reply : Json} {replyId : Str} {members : Dict} :
    replyKey reply = some (replyId, members) ↔
      reply = .object members ∧ Correlated replyId members := by
  constructor
  · intro key
    cases reply with
    | object members' =>
      cases held : Dict.get members' (str "id") with
      | string replyId' =>
        simp only [replyKey, held, Option.some.injEq, Prod.mk.injEq] at key
        obtain ⟨rfl, rfl⟩ := key
        exact ⟨rfl, held⟩
      | _ => simp [replyKey, held] at key
    | _ => simp [replyKey] at key
  · rintro ⟨rfl, correlated⟩
    have held : Dict.get members (str "id") = .string replyId := correlated
    simp only [replyKey, held]

/-- What entering one reply can do. -/
theorem correlateReply_cases (py : Interpreter) (where_ : Str) (requestIds : List Str)
    (byId : ById) (reply : Json) :
    (∃ replyId members, replyKey reply = some (replyId, members) ∧ replyId ∈ requestIds ∧
      byId.lookup replyId = none ∧
      correlateReply py where_ requestIds byId reply = .ok (byId ++ [(replyId, members)])) ∨
    ((∀ replyId members, replyKey reply = some (replyId, members) →
      replyId ∈ requestIds → byId.lookup replyId ≠ none) ∧
      ∃ message, correlateReply py where_ requestIds byId reply = .error (.fetchError message)) := by
  cases reply with
  | object members =>
    cases held : Dict.get members (str "id") with
    | string replyId =>
      simp only [correlateReply, held, replyKey]
      by_cases sent : replyId ∈ requestIds
      · cases found : byId.lookup replyId with
        | none => exact .inl ⟨replyId, members, rfl, sent, found, by simp [sent]⟩
        | some other =>
          refine .inr ⟨?_, by simp [sent]⟩
          rintro _ _ ⟨⟩ _
          simp [found]
      · refine .inr ⟨?_, by simp [sent]⟩
        rintro _ _ ⟨⟩ sent'
        exact absurd sent' sent
    | _ =>
      refine .inr ⟨by simp [replyKey, held], ?_⟩
      simp only [correlateReply, held]
      exact ⟨_, rfl⟩
  | _ => exact .inr ⟨by simp [replyKey], _, rfl⟩

theorem lookup_eq_none_iff {byId : ById} {replyId : Str} :
    byId.lookup replyId = none ↔ replyId ∉ byId.map Prod.fst := by
  induction byId with
  | nil => simp
  | cons entry rest inductionHypothesis =>
    obtain ⟨key, members⟩ := entry
    by_cases same : replyId = key
    · subst same
      simp
    · have differs : (replyId == key) = false := by simpa using same
      simp only [List.lookup_cons, differs, inductionHypothesis, List.map_cons, List.mem_cons,
        not_or]
      exact ⟨fun absent => ⟨same, absent⟩, fun absent => absent.2⟩

/-- With no id twice, a lookup finds what is entered under the id. -/
theorem lookup_eq_some_iff {byId : ById} (distinct : (byId.map Prod.fst).Nodup) {replyId : Str}
    {members : Dict} : byId.lookup replyId = some members ↔ (replyId, members) ∈ byId := by
  induction byId with
  | nil => simp
  | cons entry rest inductionHypothesis =>
    obtain ⟨key, held⟩ := entry
    simp only [List.map_cons, List.nodup_cons] at distinct
    by_cases same : replyId = key
    · subst same
      simp only [List.lookup_cons, beq_self_eq_true, Option.some.injEq, List.mem_cons,
        Prod.mk.injEq, true_and]
      constructor
      · exact fun same => .inl same.symm
      · rintro (same | member)
        · exact same.symm
        · exact absurd (List.mem_map_of_mem member) distinct.1
    · have differs : (replyId == key) = false := by simpa using same
      simp only [List.lookup_cons, differs, inductionHypothesis distinct.2, List.mem_cons,
        Prod.mk.injEq, same, false_and, false_or]

/-- The loop enters exactly the replies that tell the members apart, and refuses any other. -/
theorem foldlM_correlate (py : Interpreter) (where_ : Str) (requestIds : List Str)
    (replies : List Json) (entered : ById) (distinct : (entered.map Prod.fst).Nodup)
    (sent : ∀ replyId ∈ entered.map Prod.fst, replyId ∈ requestIds) :
    (∃ more, replies.map replyKey = more.map some ∧
      ((entered ++ more).map Prod.fst).Nodup ∧
      (∀ replyId ∈ (entered ++ more).map Prod.fst, replyId ∈ requestIds) ∧
      replies.foldlM (correlateReply py where_ requestIds) entered = .ok (entered ++ more)) ∨
    ((¬ ∃ more, replies.map replyKey = more.map some ∧
      ((entered ++ more).map Prod.fst).Nodup ∧
      ∀ replyId ∈ (entered ++ more).map Prod.fst, replyId ∈ requestIds) ∧
      ∃ message, replies.foldlM (correlateReply py where_ requestIds) entered =
        .error (.fetchError message)) := by
  induction replies generalizing entered with
  | nil =>
    left
    exact ⟨[], rfl, by simpa using distinct, by simpa using sent, by simp [pure, Except.pure]⟩
  | cons reply rest inductionHypothesis =>
    rcases correlateReply_cases py where_ requestIds entered reply with
      ⟨replyId, members, key, known, fresh, step⟩ | ⟨refused, message, step⟩
    · have fresh' := lookup_eq_none_iff.mp fresh
      have distinct' : ((entered ++ [(replyId, members)]).map Prod.fst).Nodup := by
        rw [List.map_append, List.nodup_append]
        refine ⟨distinct, by simp, ?_⟩
        rintro other member _ single rfl
        obtain rfl : other = replyId := by simpa using single
        exact fresh' member
      have sent' : ∀ other ∈ (entered ++ [(replyId, members)]).map Prod.fst,
          other ∈ requestIds := by
        intro other member
        rw [List.map_append, List.mem_append] at member
        rcases member with member | single
        · exact sent other member
        · obtain rfl : other = replyId := by simpa using single
          exact known
      rcases inductionHypothesis _ distinct' sent' with
        ⟨more, keys, apart, all, done⟩ | ⟨none, message, done⟩
      · left
        refine ⟨(replyId, members) :: more, by simp [key, keys], ?_, ?_, ?_⟩
        · simpa using apart
        · simpa using all
        · rw [List.foldlM_cons, step]
          show rest.foldlM _ _ = _
          rw [done, List.append_assoc]
          rfl
      · right
        refine ⟨?_, message, ?_⟩
        · rintro ⟨more, keys, apart, all⟩
          cases more with
          | nil => simp at keys
          | cons entry more =>
            simp only [List.map_cons, key, List.cons.injEq, Option.some.injEq] at keys
            obtain ⟨rfl, keys⟩ := keys
            exact none ⟨more, keys, by simpa using apart, by simpa using all⟩
        · rw [List.foldlM_cons, step]
          exact done
    · right
      refine ⟨?_, message, ?_⟩
      · rintro ⟨more, keys, apart, all⟩
        cases more with
        | nil => simp at keys
        | cons entry more =>
          obtain ⟨replyId, members⟩ := entry
          simp only [List.map_cons, List.cons.injEq] at keys
          refine refused replyId members keys.1 (all replyId (by simp)) ?_
          rw [lookup_eq_none_iff]
          intro member
          rw [List.map_append, List.nodup_append] at apart
          exact apart.2.2 _ member _ (by simp) rfl
      · rw [List.foldlM_cons, step]
        rfl

/-- As many replies as requests, each an object that answers an id that was sent, and no two
the same one. -/
def Attributed (requestIds : List Str) (replies : List Json) : Prop :=
  replies.length = requestIds.length ∧ ∃ byId, Correlates requestIds replies byId

theorem correlatedBatchReplies_cases (py : Interpreter) (where_ : Str) (requestIds : List Str)
    (replies : List Json) :
    (∃ byId, replies.length = requestIds.length ∧ Correlates requestIds replies byId ∧
      correlatedBatchReplies py where_ requestIds replies = .ok byId) ∨
    (¬ Attributed requestIds replies ∧ ∃ message,
      correlatedBatchReplies py where_ requestIds replies = .error (.fetchError message)) := by
  unfold correlatedBatchReplies
  by_cases count : replies.length = requestIds.length
  · rw [if_neg (not_not.mpr count)]
    rcases foldlM_correlate py where_ requestIds replies [] (by simp) (by simp) with
      ⟨byId, keys, distinct, sent, done⟩ | ⟨none, message, done⟩
    · exact .inl ⟨byId, count, ⟨keys, distinct, sent⟩, done⟩
    · exact .inr ⟨fun attributed => none attributed.2, message, done⟩
  · rw [if_pos count]
    exact .inr ⟨fun attributed => count attributed.1, _, rfl⟩

/-- What is entered under an id is the reply that answers it. -/
theorem Correlates.mem_iff {requestIds : List Str} {replies : List Json} {byId : ById}
    (correlates : Correlates requestIds replies byId) {replyId : Str} {members : Dict} :
    (replyId, members) ∈ byId ↔ .object members ∈ replies ∧ Correlated replyId members := by
  have entered : some (replyId, members) ∈ byId.map some ↔
      some (replyId, members) ∈ replies.map replyKey := by rw [correlates.1]
  simp only [List.mem_map, Option.some.injEq, exists_eq_right, replyKey_eq_some] at entered
  rw [entered]
  constructor
  · rintro ⟨reply, member, rfl, correlated⟩
    exact ⟨member, correlated⟩
  · rintro ⟨member, correlated⟩
    exact ⟨_, member, rfl, correlated⟩

/-- As many distinct ids as were sent, each of them sent, are the ids that were sent. -/
theorem Correlates.perm {requestIds : List Str} {replies : List Json} {byId : ById}
    (correlates : Correlates requestIds replies byId)
    (count : replies.length = requestIds.length) : (byId.map Prod.fst).Perm requestIds := by
  have entered : byId.length = replies.length := by
    simpa using congrArg List.length correlates.1.symm
  refine (correlates.2.1.subperm correlates.2.2).perm_of_length_le ?_
  rw [List.length_map, entered, count]

/-- Every request has its reply. -/
theorem Correlates.answered {requestIds : List Str} {replies : List Json} {byId : ById}
    (correlates : Correlates requestIds replies byId)
    (count : replies.length = requestIds.length) {requestId : Str}
    (sent : requestId ∈ requestIds) :
    ∃ members, byId.lookup requestId = some members ∧ .object members ∈ replies ∧
      Correlated requestId members := by
  obtain ⟨entry, member, rfl⟩ := List.mem_map.mp ((correlates.perm count).mem_iff.mpr sent)
  obtain ⟨replyId, members⟩ := entry
  exact ⟨members, (lookup_eq_some_iff correlates.2.1).mpr member, correlates.mem_iff.mp member⟩

/-- Replies in another order are entered alike. -/
theorem Correlates.lookup_eq {requestIds : List Str} {replies replies' : List Json}
    {byId byId' : ById} (correlates : Correlates requestIds replies byId)
    (correlates' : Correlates requestIds replies' byId') (reordered : replies'.Perm replies)
    (requestId : Str) : byId'.lookup requestId = byId.lookup requestId := by
  refine Option.ext fun members => ?_
  rw [lookup_eq_some_iff correlates'.2.1, lookup_eq_some_iff correlates.2.1, correlates'.mem_iff,
    correlates.mem_iff, reordered.mem_iff]

theorem map_eq_map_some {replies : List Json} {byId : ById} :
    replies.map replyKey = byId.map some ↔
      byId = replies.filterMap replyKey ∧ ∀ reply ∈ replies, replyKey reply ≠ none := by
  induction replies generalizing byId with
  | nil => cases byId <;> simp
  | cons reply rest inductionHypothesis =>
    cases key : replyKey reply with
    | none => cases byId <;> simp [key]
    | some entry =>
      cases byId with
      | nil => simp [key]
      | cons first others =>
        rw [List.map_cons, List.map_cons, List.filterMap_cons_some key, List.cons.injEq,
          List.cons.injEq, inductionHypothesis, List.forall_mem_cons, key, Option.some.injEq]
        simp [eq_comm, and_assoc]

/-- The replies of a batch may come in any order. -/
theorem Attributed.perm {requestIds : List Str} {replies replies' : List Json}
    (attributed : Attributed requestIds replies) (reordered : replies'.Perm replies) :
    Attributed requestIds replies' := by
  obtain ⟨count, byId, keys, distinct, sent⟩ := attributed
  obtain ⟨rfl, keyed⟩ := map_eq_map_some.mp keys
  have same : (replies'.filterMap replyKey).Perm (replies.filterMap replyKey) :=
    reordered.filterMap replyKey
  refine ⟨reordered.length_eq.trans count, replies'.filterMap replyKey, ?_, ?_, ?_⟩
  · exact map_eq_map_some.mpr ⟨rfl, fun reply member => keyed reply (reordered.mem_iff.mp member)⟩
  · exact ((same.map Prod.fst).nodup_iff).mpr distinct
  · exact fun replyId member => sent replyId ((same.map Prod.fst).mem_iff.mp member)

/-! ### What each entry is -/

/-- The outcome a lone call has where the batch lists the entry. -/
def BatchEntry.outcome : BatchEntry → Except Exc Json
  | .result value => .ok value
  | .rpcError message code data => .error (.rpcError message code data)

/-- An entry is what its reply is read as. -/
theorem batchEntry_eq_ok {py : Interpreter} {url : Str} {byId : ById} {method : Str} {index : Nat}
    {requestId : Str} {reply : Dict} (found : byId.lookup requestId = some reply)
    {entry : BatchEntry} : batchEntry py url byId method index requestId = .ok entry ↔
      discriminate py (method ++ str " at " ++ url ++ str " (call_batch member " ++
        natText index ++ str ")") requestId 200 reply = entry.outcome := by
  simp only [batchEntry, found]
  cases discriminate py (method ++ str " at " ++ url ++ str " (call_batch member " ++
    natText index ++ str ")") requestId 200 reply with
  | ok value => cases entry <;> simp [BatchEntry.outcome]
  | error e =>
    cases e with
    | rpcError message code data => cases entry <;> simp [BatchEntry.outcome]
    | _ => cases entry <;> simp [BatchEntry.outcome]

theorem batchEntry_eq_error {py : Interpreter} {url : Str} {byId : ById} {method : Str}
    {index : Nat} {requestId : Str} {reply : Dict} (found : byId.lookup requestId = some reply)
    {e : Exc} (raised : batchEntry py url byId method index requestId = .error e) :
    ∃ message, e = .fetchError message := by
  simp only [batchEntry, found] at raised
  have law := discriminate_classified py (method ++ str " at " ++ url ++
    str " (call_batch member " ++ natText index ++ str ")") requestId 200 reply
  split at raised
  · cases raised
  · cases raised
  · next e' other outcome =>
    rw [outcome] at law
    cases raised
    cases e with
    | fetchError message => exact ⟨message, rfl⟩
    | rpcError message code data => exact absurd rfl (other message code data)
    | _ => obtain ⟨⟨_, _, ⟨⟩⟩ | ⟨failed, _⟩, _⟩ := law; exact absurd rfl failed

/-- What the reading of a batch can do. -/
theorem readBatch_cases (py : Interpreter) (url : Str) (methods requestIds : List Str)
    (replies : List Json) :
    (∃ byId, replies.length = requestIds.length ∧ Correlates requestIds replies byId ∧
      readBatch py url methods requestIds replies =
        batchEntries py url byId methods requestIds) ∨
    (¬ Attributed requestIds replies ∧ ∃ message,
      readBatch py url methods requestIds replies = .error (.fetchError message)) := by
  unfold readBatch
  rcases correlatedBatchReplies_cases py (str "call_batch at " ++ url) requestIds replies with
    ⟨byId, count, correlates, done⟩ | ⟨none, message, done⟩
  · exact .inl ⟨byId, count, correlates, by rw [done]; rfl⟩
  · exact .inr ⟨none, message, by rw [done]; rfl⟩

theorem mem_batch {methods requestIds : List Str} {method requestId : Str} {index : Nat}
    (member : ((method, requestId), index) ∈ (methods.zip requestIds).zipIdx) :
    methods[index]? = some method ∧ requestIds[index]? = some requestId := by
  have := List.mem_zipIdx_iff_getElem?.mp member
  simpa [List.getElem?_zip_eq_some] using this

theorem batchEntries_raises {py : Interpreter} {url : Str} {methods requestIds : List Str}
    {replies : List Json} {byId : ById} (correlates : Correlates requestIds replies byId)
    (count : replies.length = requestIds.length) {e : Exc}
    (raised : batchEntries py url byId methods requestIds = .error e) :
    ∃ message, e = .fetchError message := by
  obtain ⟨⟨⟨method, requestId⟩, index⟩, member, failed⟩ := mapM_eq_error raised
  obtain ⟨members, found, _⟩ :=
    correlates.answered count (List.mem_of_getElem? (mem_batch member).2)
  exact batchEntry_eq_error found failed

/-- The entries are aligned with the members, each read from the reply of its own. -/
theorem batchEntries_aligned {py : Interpreter} {url : Str} {methods requestIds : List Str}
    {replies : List Json} {byId : ById} (correlates : Correlates requestIds replies byId)
    (count : replies.length = requestIds.length) (paired : methods.length = requestIds.length)
    {entries : List BatchEntry}
    (returned : batchEntries py url byId methods requestIds = .ok entries) :
    entries.length = methods.length ∧ ∀ index method requestId,
      methods[index]? = some method → requestIds[index]? = some requestId →
      ∃ entry reply, entries[index]? = some entry ∧ .object reply ∈ replies ∧
        Correlated requestId reply ∧
        (∀ other, .object other ∈ replies → Correlated requestId other → other = reply) ∧
        discriminate py (method ++ str " at " ++ url ++ str " (call_batch member " ++
          natText index ++ str ")") requestId 200 reply = entry.outcome := by
  have all := mapM_eq_ok.mp returned
  have size : entries.length = methods.length := by
    have := all.length_eq
    simp only [List.length_zipIdx, List.length_zip, paired, min_self] at this
    rw [← this, paired]
  refine ⟨size, fun index method requestId atMethod atId => ?_⟩
  obtain ⟨reply, found, member, correlated⟩ :=
    correlates.answered count (List.mem_of_getElem? atId)
  have here : (methods.zip requestIds).zipIdx[index]? = some ((method, requestId), index) := by
    have paired' : (methods.zip requestIds)[index]? = some (method, requestId) :=
      List.getElem?_zip_eq_some.mpr ⟨atMethod, atId⟩
    simp [List.getElem?_zipIdx, paired']
  obtain ⟨entry, atEntry, read⟩ := mapM_getElem? returned here
  refine ⟨entry, reply, atEntry, member, correlated, fun other member' correlated' => ?_,
    (batchEntry_eq_ok found).mp read⟩
  have entered := (lookup_eq_some_iff correlates.2.1).mpr
    (correlates.mem_iff.mpr ⟨member', correlated'⟩)
  rw [found] at entered
  exact (Option.some.inj entered).symm

/-! ### `call_batch` -/

/-- What a batch is sent as is its members': a method and an id for each, in order. -/
theorem batchRequest_members {py : Interpreter} {heap : Heap} {frames : Nat} {rpcIds : Nat → Str}
    {validTimeout : Except Exc Unit} {calls : Obj} {methods requestIds : List Str} {body : Bytes}
    (sent : batchRequest py heap frames rpcIds validTimeout calls =
      .ok (methods, requestIds, body)) :
    ∃ members pairs, calls.iterated = some members ∧ List.Forall₂ heap.IsPair members pairs ∧
      methods = (pairs.map fun pair => heap.methodName pair.1) ∧
      requestIds = (List.range pairs.length).map rpcIds := by
  obtain ⟨pairs, paired, afterPairs⟩ := bind_eq_ok sent
  split_ifs at afterPairs
  obtain ⟨_, _, afterTimeout⟩ := bind_eq_ok afterPairs
  obtain ⟨_, _, afterMembers⟩ := bind_eq_ok afterTimeout
  obtain ⟨_, _, returned⟩ := bind_eq_ok afterMembers
  cases returned
  obtain ⟨members, iterated, each⟩ := batchPairs_eq_ok paired
  exact ⟨members, pairs, iterated, each, rfl, rfl⟩

/-- Past the exchange, a reply array under a 200 is read for the members sent. -/
theorem callBatch_eq {py : Interpreter} {loads : Loads} {heap : Heap} {frames : Nat} {url : Str}
    {rpcIds : Nat → Str} {validTimeout : Except Exc Unit}
    {httpRequest : Bytes → Except Exc (Nat × Bytes)} {calls : Obj} {methods requestIds : List Str}
    {body payload : Bytes} {replies : List Json}
    (sent : batchRequest py heap frames rpcIds validTimeout calls =
      .ok (methods, requestIds, body))
    (answered : httpRequest body = .ok (200, payload))
    (parsed : loads payload = .ok (.array replies)) :
    callBatch py loads heap frames url rpcIds validTimeout httpRequest calls =
      readBatch py url methods requestIds replies := by
  have array : batchReplyArray loads (str "call_batch at " ++ url) 200 payload = .ok replies := by
    simp only [batchReplyArray, parsedJsonBody, parsed]
    rfl
  simp only [callBatch, sent, answered, bind, Except.bind, ne_eq, not_true_eq_false, if_false, array]

/-- Batch replies are aligned by id, whatever their order. For a batch that was sent and an
array of replies under a 200: the methods and the ids are those of the members of `calls`, in
order; a list that is returned has one entry for each member, read from the one reply that answers
the member's id as a lone call of the member's method reads it; replies that cannot be told
apart by the ids sent are refused, and nothing but a refusal is raised; and replies in another
order have the same outcome. -/
theorem callBatch_aligned (py : Interpreter) (loads : Loads) (heap : Heap) (frames : Nat)
    (url : Str) (rpcIds : Nat → Str) (validTimeout : Except Exc Unit)
    (httpRequest : Bytes → Except Exc (Nat × Bytes)) (calls : Obj) (methods requestIds : List Str)
    (body payload : Bytes) (replies : List Json)
    (sent : batchRequest py heap frames rpcIds validTimeout calls =
      .ok (methods, requestIds, body))
    (answered : httpRequest body = .ok (200, payload))
    (parsed : loads payload = .ok (.array replies)) :
    ∃ members pairs, calls.iterated = some members ∧ List.Forall₂ heap.IsPair members pairs ∧
    methods = (pairs.map fun pair => heap.methodName pair.1) ∧
    requestIds = (List.range members.length).map rpcIds ∧
    (∀ entries, callBatch py loads heap frames url rpcIds validTimeout httpRequest calls =
        .ok entries →
      entries.length = members.length ∧ ∀ index pair, pairs[index]? = some pair →
        ∃ entry reply, entries[index]? = some entry ∧ .object reply ∈ replies ∧
          Correlated (rpcIds index) reply ∧
          (∀ other, .object other ∈ replies → Correlated (rpcIds index) other → other = reply) ∧
          discriminate py (heap.methodName pair.1 ++ str " at " ++ url ++
            str " (call_batch member " ++ natText index ++ str ")") (rpcIds index) 200 reply =
              entry.outcome ∧
          ∀ lone, loads lone = .ok (.object reply) →
            Alike (result py loads (heap.methodName pair.1) url (rpcIds index) 200 lone)
              entry.outcome) ∧
    (¬ Attributed requestIds replies → ∃ message,
      callBatch py loads heap frames url rpcIds validTimeout httpRequest calls =
        .error (.fetchError message)) ∧
    (∀ e, callBatch py loads heap frames url rpcIds validTimeout httpRequest calls = .error e →
      ∃ message, e = .fetchError message) ∧
    (∀ replies' payload', replies'.Perm replies → loads payload' = .ok (.array replies') →
      Alike (callBatch py loads heap frames url rpcIds validTimeout
          (fun _ => .ok (200, payload')) calls)
        (callBatch py loads heap frames url rpcIds validTimeout httpRequest calls)) := by
  obtain ⟨members, pairs, iterated, members', named, drawn⟩ := batchRequest_members sent
  have paired : methods.length = requestIds.length := by simp [named, drawn]
  simp only [callBatch_eq sent answered parsed]
  refine ⟨members, pairs, iterated, members', named, by rw [drawn, members'.length_eq],
    fun entries returned => ?_, fun foreign => ?_, fun e raised => ?_,
    fun replies' payload' reordered parsed' => ?_⟩
  · rcases readBatch_cases py url methods requestIds replies with
      ⟨byId, count, correlates, read⟩ | ⟨_, message, read⟩
    · obtain ⟨size, each⟩ := batchEntries_aligned correlates count paired (read ▸ returned)
      have oneEach : entries.length = members.length := by
        rw [size, named, List.length_map, members'.length_eq]
      refine ⟨oneEach, fun index pair here => ?_⟩
      have atMethod : methods[index]? = some (heap.methodName pair.1) := by simp [named, here]
      have atId : requestIds[index]? = some (rpcIds index) := by
        rw [drawn, List.getElem?_map,
          List.getElem?_range (List.getElem?_eq_some_iff.mp here).1, Option.map_some]
      obtain ⟨entry, reply, at_, member, correlated, only, outcome⟩ := each index _ _ atMethod atId
      refine ⟨entry, reply, at_, member, correlated, only, outcome, fun lone alone => ?_⟩
      have object : replyObject loads (heap.methodName pair.1 ++ str " at " ++ url) 200 lone =
          .ok reply := by
        simp only [replyObject, parsedJsonBody, alone]
        rfl
      have read : result py loads (heap.methodName pair.1) url (rpcIds index) 200 lone =
          discriminate py (heap.methodName pair.1 ++ str " at " ++ url) (rpcIds index) 200 reply := by
        simp only [result, object]
        rfl
      rw [read, ← outcome]
      exact discriminate_alike py _ _ (rpcIds index) 200 reply
    · rw [read] at returned
      cases returned
  · rcases readBatch_cases py url methods requestIds replies with
      ⟨byId, count, correlates, _⟩ | ⟨_, message, read⟩
    · exact absurd ⟨count, byId, correlates⟩ foreign
    · exact ⟨message, read⟩
  · rcases readBatch_cases py url methods requestIds replies with
      ⟨byId, count, correlates, read⟩ | ⟨_, message, read⟩
    · exact batchEntries_raises correlates count (read ▸ raised)
    · rw [read] at raised
      cases raised
      exact ⟨message, rfl⟩
  · rw [callBatch_eq sent rfl parsed']
    rcases readBatch_cases py url methods requestIds replies with
      ⟨byId, count, correlates, read⟩ | ⟨foreign, message, read⟩ <;>
    rcases readBatch_cases py url methods requestIds replies' with
      ⟨byId', count', correlates', read'⟩ | ⟨foreign', message', read'⟩
    · have same : batchEntries py url byId' methods requestIds =
          batchEntries py url byId methods requestIds := by
        simp only [batchEntries, batchEntry, correlates.lookup_eq correlates' reordered]
      rw [read, read', same]
      exact alike_refl _
    · exact absurd (Attributed.perm ⟨count, byId, correlates⟩ reordered) foreign'
    · exact absurd (Attributed.perm ⟨count', byId', correlates'⟩ reordered.symm) foreign
    · rw [read, read']
      rfl

/-- A batch of two calls without parameters: its calls, and the heap they are in. -/
def twoCalls : Heap :=
  [.str (str "getblockcount"), .none, .tuple [0, 1], .str (str "getbestblockhash"), .tuple [3, 1]]

/-- The ids the two calls are sent under. -/
def twoIds : Nat → Str
  | 0 => str "a"
  | _ => str "b"

/-- What the two calls are sent as. -/
def twoRequests : Bytes :=
  str "[\x7b\"jsonrpc\": \"2.0\", \"id\": \"a\", \"method\": \"getblockcount\", \"params\": []\x7d, " ++
    str "\x7b\"jsonrpc\": \"2.0\", \"id\": \"b\", \"method\": \"getbestblockhash\", \"params\": []\x7d]"

theorem twoCalls_sent : batchRequest cpython twoCalls 50 twoIds (.ok ()) (.list [2, 4]) =
    .ok ([str "getblockcount", str "getbestblockhash"], [str "a", str "b"], twoRequests) := by
  decide +kernel

/-- Their replies, in the other order. -/
def swappedReplies : Bytes :=
  str "[\x7b\"jsonrpc\":\"2.0\",\"id\":\"b\",\"result\":2\x7d," ++
    str "\x7b\"jsonrpc\":\"2.0\",\"id\":\"a\",\"result\":1\x7d]"

def reply (requestId : Str) (value : Json) : Dict :=
  [(str "jsonrpc", .string (str "2.0")), (str "id", .string requestId), (str "result", value)]

/-- Replies in the other order are listed in the members' own. -/
theorem callBatch_aligned_swapped :
    callBatch cpython (loads cpython) twoCalls 50 (str "u") twoIds (.ok ())
      (fun _ => .ok (200, swappedReplies)) (.list [2, 4]) =
        .ok [.result (.int 1), .result (.int 2)] ∧
    ∃ entry member, [BatchEntry.result (.int 1), .result (.int 2)][1]? = some entry ∧
      Json.object member ∈ [Json.object (reply (str "b") (.int 2)),
        .object (reply (str "a") (.int 1))] ∧
      Correlated (str "b") member ∧
      discriminate cpython (str "getbestblockhash at u (call_batch member 1)") (str "b") 200 member =
        entry.outcome := by
  have parsed : loads cpython swappedReplies =
      .ok (.array [.object (reply (str "b") (.int 2)), .object (reply (str "a") (.int 1))]) := by
    decide +kernel
  have returned : callBatch cpython (loads cpython) twoCalls 50 (str "u") twoIds (.ok ())
      (fun _ => .ok (200, swappedReplies)) (.list [2, 4]) =
        .ok [.result (.int 1), .result (.int 2)] := by
    decide +kernel
  obtain ⟨members, pairs, _, _, named, _, aligned, _⟩ := callBatch_aligned cpython (loads cpython)
    twoCalls 50 (str "u") twoIds (.ok ()) (fun _ => .ok (200, swappedReplies)) (.list [2, 4]) _ _
    twoRequests swappedReplies _ twoCalls_sent rfl parsed
  obtain ⟨second, here, hash⟩ : ∃ second, pairs[1]? = some second ∧
      twoCalls.methodName second.1 = str "getbestblockhash" := by
    obtain _ | ⟨first, _ | ⟨second, _⟩⟩ := pairs
    · simp at named
    · simp at named
    · simp only [List.map_cons, List.cons.injEq] at named
      exact ⟨second, rfl, named.2.1.symm⟩
  obtain ⟨entry, member, listed, found, correlated, _, outcome, _⟩ :=
    (aligned _ returned).2 1 second here
  rw [hash] at outcome
  exact ⟨returned, entry, member, listed, found, correlated, outcome⟩

/-! ### One member's reply and the others' answers -/

/-- A reply a member's outcome can be read from: without a version marker, a readable error
object, or a `null` error beside a result; marked 2.0, a result without an error, or a readable
error object without a result. -/
def ReadableMember (reply : Dict) : Prop :=
  (reply.lookup (str "jsonrpc") = none ∧
    ((∃ code data, ReadableError (Dict.get reply (str "error")) code data) ∨
      (Dict.get reply (str "error") = .null ∧ Dict.has reply (str "result") = true))) ∨
  (reply.lookup (str "jsonrpc") = some (.string (str "2.0")) ∧
    ((Dict.has reply (str "result") = true ∧ Dict.has reply (str "error") = false) ∨
      (Dict.has reply (str "result") = false ∧
        ∃ code data, ReadableError (Dict.get reply (str "error")) code data)))

theorem exists_outcome_ok (value : Json) :
    ∃ entry : BatchEntry, (.ok value : Except Exc Json) = entry.outcome :=
  ⟨.result value, rfl⟩

theorem not_outcome_fetchError {message : Str} :
    ¬ ∃ entry : BatchEntry, (.error (.fetchError message) : Except Exc Json) = entry.outcome := by
  rintro ⟨entry, same⟩
  cases entry <;> cases same

theorem rpcError_outcome (py : Interpreter) (where_ : Str) (error : Json) :
    (∃ entry : BatchEntry, (.error (rpcError py where_ error) : Except Exc Json) = entry.outcome) ↔
      ∃ code data, ReadableError error code data := by
  rcases rpcError_cases py where_ error with
    ⟨message, code, data, raised, readable⟩ | ⟨⟨message, raised⟩, unreadable⟩
  · rw [raised]
    exact ⟨fun _ => ⟨code, data, readable⟩, fun _ => ⟨.rpcError message code data, rfl⟩⟩
  · rw [raised]
    exact ⟨fun outcome => absurd outcome not_outcome_fetchError,
      fun ⟨code, data, readable⟩ => absurd readable (unreadable code data)⟩

theorem ReadableError.not_null {error : Json} {code : Int} {data : Json}
    (readable : ReadableError error code data) : error ≠ .null := by
  obtain ⟨members, message, rfl, _⟩ := readable
  exact Json.noConfusion

theorem isNone_iff {value : Json} : value.isNone = true ↔ value = .null := by
  cases value <;> simp [Json.isNone]

theorem legacyResult_answers (py : Interpreter) (where_ requestId : Str) {reply : Dict}
    (correlated : Correlated requestId reply) :
    (∃ entry : BatchEntry, legacyResult py where_ requestId 200 reply = entry.outcome) ↔
      (∃ code data, ReadableError (Dict.get reply (str "error")) code data) ∨
        (Dict.get reply (str "error") = .null ∧ Dict.has reply (str "result") = true) := by
  have ours : (Dict.get reply (str "id")).isStr requestId = true := isStr_iff.mpr correlated
  simp only [legacyResult, ours, Bool.true_and]
  by_cases silent : Dict.get reply (str "error") = .null
  · have quiet : (Dict.get reply (str "error")).isNone = true := isNone_iff.mpr silent
    rw [quiet, if_neg (by simp), if_neg (by simp), if_neg (by simp)]
    by_cases has : Dict.has reply (str "result") = true
    · obtain ⟨value, _, item, _⟩ := getItem_eq_ok reply (str "result") has
      rw [has, Bool.not_true, if_neg (by simp), item]
      exact ⟨fun _ => .inr ⟨silent, rfl⟩, fun _ => exists_outcome_ok value⟩
    · rw [if_pos (by simpa using has)]
      refine ⟨fun outcome => absurd outcome not_outcome_fetchError, ?_⟩
      rintro (⟨code, data, readable⟩ | ⟨_, present⟩)
      · exact absurd silent readable.not_null
      · exact absurd present has
  · have loud : (Dict.get reply (str "error")).isNone = false := by
      rw [← Bool.not_eq_true, isNone_iff]
      exact silent
    rw [loud, Bool.not_false, if_pos rfl]
    rcases rpcError_cases py where_ (Dict.get reply (str "error")) with
      ⟨message, code, data, raised, readable⟩ | ⟨⟨message, raised⟩, unreadable⟩
    · simp only [raised]
      exact ⟨fun _ => .inl ⟨code, data, readable⟩, fun _ => ⟨.rpcError message code data, rfl⟩⟩
    · simp only [raised]
      rw [if_pos trivial]
      refine ⟨fun outcome => absurd outcome not_outcome_fetchError, ?_⟩
      rintro (⟨code, data, readable⟩ | ⟨null, _⟩)
      · exact absurd readable (unreadable code data)
      · exact absurd null silent

theorem get_eq_null {reply : Dict} {name : Str} (absent : Dict.has reply name = false) :
    Dict.get reply name = .null := by
  have missing : reply.lookup name = none := by
    cases found : reply.lookup name with
    | none => rfl
    | some held => simp [Dict.has, found] at absent
  rw [Dict.get, missing]
  rfl

theorem v2Result_answers (py : Interpreter) (where_ requestId : Str) {reply : Dict}
    (correlated : Correlated requestId reply) :
    (∃ entry : BatchEntry, v2Result py where_ requestId 200 reply = entry.outcome) ↔
      (Dict.has reply (str "result") = true ∧ Dict.has reply (str "error") = false) ∨
        (Dict.has reply (str "result") = false ∧
          ∃ code data, ReadableError (Dict.get reply (str "error")) code data) := by
  have ours : (Dict.get reply (str "id")).isStr requestId = true := isStr_iff.mpr correlated
  unfold v2Result
  rw [ours, if_neg (by simp), if_neg (by simp)]
  cases results : Dict.has reply (str "result") <;> cases errors : Dict.has reply (str "error")
  · rw [if_pos (by simp)]
    refine ⟨fun outcome => absurd outcome not_outcome_fetchError, ?_⟩
    rintro (⟨⟨⟩, _⟩ | ⟨_, code, data, readable⟩)
    exact absurd (get_eq_null errors) readable.not_null
  · obtain ⟨held, _, item, got⟩ := getItem_eq_ok reply (str "error") errors
    rw [if_neg (by simp), if_pos rfl, item, got]
    show (∃ entry : BatchEntry, (.error (rpcError py where_ held) : Except Exc Json) =
      entry.outcome) ↔ _
    rw [rpcError_outcome]
    simp
  · obtain ⟨value, _, item, _⟩ := getItem_eq_ok reply (str "result") results
    rw [if_neg (by simp), if_neg (by simp), item]
    exact ⟨fun _ => .inl ⟨rfl, rfl⟩, fun _ => exists_outcome_ok value⟩
  · rw [if_pos (by simp)]
    refine ⟨fun outcome => absurd outcome not_outcome_fetchError, ?_⟩
    rintro (⟨_, ⟨⟩⟩ | ⟨⟨⟩, _⟩)

/-- A member's reply is read as an entry exactly where it is readable. -/
theorem discriminate_answers (py : Interpreter) (where_ requestId : Str) {reply : Dict}
    (correlated : Correlated requestId reply) :
    (∃ entry : BatchEntry, discriminate py where_ requestId 200 reply = entry.outcome) ↔
      ReadableMember reply := by
  unfold discriminate ReadableMember
  by_cases marked : Dict.has reply (str "jsonrpc") = true
  · obtain ⟨marker, found, item, _⟩ := getItem_eq_ok reply (str "jsonrpc") marked
    rw [marked, Bool.not_true, if_neg (by simp), item, found]
    simp only [bind, Except.bind]
    by_cases version : marker = .string (str "2.0")
    · rw [if_neg (by simpa using isStr_iff.mpr version), v2Result_answers py where_ requestId
        correlated, version]
      simp
    · have other : marker.isStr (str "2.0") = false := by
        rw [← Bool.not_eq_true, isStr_iff]
        exact version
      rw [other, Bool.not_false, if_pos rfl, if_neg (by simp)]
      refine ⟨fun outcome => absurd outcome not_outcome_fetchError, ?_⟩
      rintro (⟨⟨⟩, _⟩ | ⟨same, _⟩)
      exact absurd (Option.some.inj same) version
  · have absent := Option.not_isSome_iff_eq_none.mp marked
    rw [if_pos (by simpa using marked), legacyResult_answers py where_ requestId correlated, absent]
    simp

/-- Exactly when one member's reply discards the answers of the others: a batch whose every
reply is attributed returns a list of an entry for each member if and only if every reply is one
that can be read. -/
theorem callBatch_returns_iff (py : Interpreter) (loads : Loads) (heap : Heap) (frames : Nat)
    (url : Str) (rpcIds : Nat → Str) (validTimeout : Except Exc Unit)
    (httpRequest : Bytes → Except Exc (Nat × Bytes)) (calls : Obj) (methods requestIds : List Str)
    (body payload : Bytes) (replies : List Json)
    (sent : batchRequest py heap frames rpcIds validTimeout calls =
      .ok (methods, requestIds, body))
    (answered : httpRequest body = .ok (200, payload))
    (parsed : loads payload = .ok (.array replies))
    (attributed : Attributed requestIds replies) :
    ∃ members, calls.iterated = some members ∧
      ((∃ entries, callBatch py loads heap frames url rpcIds validTimeout httpRequest calls =
        .ok entries ∧ entries.length = members.length) ↔
        ∀ member, .object member ∈ replies → ReadableMember member) := by
  obtain ⟨members, pairs, iterated, members', named, drawn⟩ := batchRequest_members sent
  have paired : methods.length = requestIds.length := by simp [named, drawn]
  have oneEach : methods.length = members.length := by
    rw [named, List.length_map, members'.length_eq]
  refine ⟨members, iterated, ?_⟩
  rw [callBatch_eq sent answered parsed]
  rcases readBatch_cases py url methods requestIds replies with
    ⟨byId, count, correlates, read⟩ | ⟨foreign, _⟩
  · rw [read]
    have returns : (∃ entries, batchEntries py url byId methods requestIds = .ok entries ∧
        entries.length = members.length) ↔
        ∃ entries, batchEntries py url byId methods requestIds = .ok entries :=
      ⟨fun ⟨entries, returned, _⟩ => ⟨entries, returned⟩, fun ⟨entries, returned⟩ =>
        ⟨entries, returned, oneEach ▸ (batchEntries_aligned correlates count paired returned).1⟩⟩
    rw [returns, batchEntries, mapM_isOk]
    constructor
    · intro each member inside
      obtain ⟨replyId, correlated⟩ : ∃ replyId, (replyId, member) ∈ byId := by
        have keyed := (map_eq_map_some.mp correlates.1).2 _ inside
        obtain ⟨⟨replyId, member'⟩, key⟩ := Option.ne_none_iff_exists'.mp keyed
        obtain ⟨same, correlated⟩ := replyKey_eq_some.mp key
        cases same
        exact ⟨replyId, correlates.mem_iff.mpr ⟨inside, correlated⟩⟩
      have sentId := correlates.2.2 replyId (List.mem_map_of_mem correlated)
      obtain ⟨index, atId⟩ := List.mem_iff_getElem?.mp sentId
      obtain ⟨bound, _⟩ := List.getElem?_eq_some_iff.mp atId
      obtain ⟨method, atMethod⟩ : ∃ method, methods[index]? = some method :=
        ⟨_, List.getElem?_eq_getElem (paired ▸ bound)⟩
      obtain ⟨entry, done⟩ := each ((method, replyId), index) (by
        rw [List.mem_zipIdx_iff_getElem?]
        exact List.getElem?_zip_eq_some.mpr ⟨atMethod, atId⟩)
      have found := (lookup_eq_some_iff correlates.2.1).mpr correlated
      exact (discriminate_answers py _ replyId (correlates.mem_iff.mp correlated).2).mp
        ⟨entry, (batchEntry_eq_ok found).mp done⟩
    · rintro readable ⟨⟨method, requestId⟩, index⟩ inside
      obtain ⟨member, found, here, correlated⟩ :=
        correlates.answered count (List.mem_of_getElem? (mem_batch inside).2)
      obtain ⟨entry, outcome⟩ := (discriminate_answers py (method ++ str " at " ++ url ++
        str " (call_batch member " ++ natText index ++ str ")") requestId correlated).mpr
          (readable member here)
      exact ⟨entry, (batchEntry_eq_ok found).mpr outcome⟩
  · exact absurd attributed foreign

/-- A good reply, and one of the other call's with neither a result nor an error. -/
def halfReplies : Bytes :=
  str "[\x7b\"jsonrpc\":\"2.0\",\"id\":\"a\",\"result\":1\x7d," ++
    str "\x7b\"jsonrpc\":\"2.0\",\"id\":\"b\"\x7d]"

/-- The reply without a result. -/
def emptyReply : Dict :=
  [(str "jsonrpc", .string (str "2.0")), (str "id", .string (str "b"))]

theorem halfReplies_attributed : Attributed [str "a", str "b"]
    [.object (reply (str "a") (.int 1)), .object emptyReply] :=
  ⟨rfl, [(str "a", reply (str "a") (.int 1)), (str "b", emptyReply)], by decide, by decide,
    by decide⟩

theorem halfReplies_parsed : loads cpython halfReplies =
    .ok (.array [.object (reply (str "a") (.int 1)), .object emptyReply]) := by
  decide +kernel

/-- Every reply is attributed and the first is good, and the whole batch is refused for the
second. -/
theorem callBatch_discards_answer :
    Attributed [str "a", str "b"] [.object (reply (str "a") (.int 1)), .object emptyReply] ∧
    callBatch cpython (loads cpython) twoCalls 50 (str "u") twoIds (.ok ())
      (fun _ => .ok (200, halfReplies)) (.list [2, 4]) =
        .error (.fetchError (str "getbestblockhash at u (call_batch member 1): " ++
          str "a 2.0 reply with neither result nor error")) :=
  ⟨halfReplies_attributed, by decide +kernel⟩

/-- The refusal is as the condition has it: the second reply is not readable. -/
theorem callBatch_returns_iff_half :
    ¬ (∀ member, .object member ∈ [Json.object (reply (str "a") (.int 1)), .object emptyReply] →
      ReadableMember member) := by
  obtain ⟨members, _, returns⟩ := callBatch_returns_iff cpython (loads cpython) twoCalls 50 (str "u")
    twoIds (.ok ()) (fun _ => .ok (200, halfReplies)) (.list [2, 4]) _ _ twoRequests halfReplies _
    twoCalls_sent rfl halfReplies_parsed halfReplies_attributed
  rw [← returns]
  rintro ⟨entries, returned, _⟩
  have refused : callBatch cpython (loads cpython) twoCalls 50 (str "u") twoIds (.ok ())
      (fun _ => .ok (200, halfReplies)) (.list [2, 4]) =
        .error (.fetchError (str "getbestblockhash at u (call_batch member 1): " ++
          str "a 2.0 reply with neither result nor error")) := by
    decide +kernel
  rw [refused] at returned
  cases returned

end BitcoinCoreRpc
