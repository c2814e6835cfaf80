/-
This file models the reading of a lone reply: the six functions that turn a status
and a body into a value, an rpc error, an HTTP error or a refusal.

The json parser is a parameter, with what the readers rely on as a hypothesis: it
raises a `ValueError`, a `RecursionError`, a `DecimalException`, or the `FetchError`
its two hooks raise. The result of the file is one law over every status, body and
request id: which outcome `_result` has, and that it has no other.
-/

import BitcoinCoreRpc.Loads

namespace BitcoinCoreRpc

/-! ### The readers -/

/-- `_http_error` -/
def httpError (where_ : Str) (status : Nat) : Exc :=
  if status = 401 then
    .httpError (where_ ++ str ": HTTP 401, the node refused the credentials") status
  else .httpError (where_ ++ str ": HTTP " ++ natText status) status

/-- `_id_error` -/
def idError (py : Interpreter) (where_ requestId : Str) (reply : Dict) : Exc :=
  .fetchError (where_ ++ str ": reply id " ++ py.repr (Dict.get reply (str "id")) ++
    str " is not the " ++ py.repr (.string requestId) ++ str " asked for")

/-- `_rpc_error`: the exception for what the node put in `error`. -/
def rpcError (py : Interpreter) (where_ : Str) (error : Json) : Exc :=
  let unreadable := .fetchError (where_ ++ str ": unreadable rpc error " ++ py.repr error)
  match error with
  | .object members =>
    match Dict.get members (str "code"), Dict.get members (str "message") with
    | .int code, .string message =>
      .rpcError (where_ ++ str ": " ++ message) code (Dict.get members (str "data"))
    | _, _ => unreadable
  | _ => unreadable

/-- `_unreadable` -/
def unreadable (where_ : Str) (cause : Exc) : Exc :=
  if cause.isRecursionError then .fetchError (where_ ++ str ": a reply nested too deeply to parse")
  else .fetchError (where_ ++ str ": a reply the json parser refused (" ++ cause.message ++ str ")")

/-- `_parsed_json_body` -/
def parsedJsonBody (loads : Loads) (where_ : Str) (status : Nat) (payload : Bytes) :
    Except Exc Json :=
  match loads payload with
  | .ok value => .ok value
  | .error e =>
    if e.isFetchError then
      if status = 200 then .error e else .error (httpError where_ status)
    else if e.isValueError || e.isRecursionError || e.isDecimalException then
      -- the two shapes are raised outside the handler, the rest within it
      match e with
      | .unicodeDecodeError _ =>
        if status ≠ 200 then .error (httpError where_ status)
        else .error (.fetchError (where_ ++ str ": a reply that is not utf-8"))
      | .jsonDecodeError message =>
        if status ≠ 200 then .error (httpError where_ status)
        else .error (.fetchError (where_ ++ str ": not json (" ++ message ++ str ")"))
      | e =>
        if status ≠ 200 then .error (httpError where_ status) else .error (unreadable where_ e)
    else .error e

/-- `_reply_object` -/
def replyObject (loads : Loads) (where_ : Str) (status : Nat) (payload : Bytes) :
    Except Exc Dict := do
  let reply ← parsedJsonBody loads where_ status payload
  match reply with
  | .object members => .ok members
  | _ =>
    if status ≠ 200 then .error (httpError where_ status)
    else .error (.fetchError (where_ ++ str ": not a json-rpc reply, but a " ++ reply.typeName))

/-- `_legacy_result` -/
def legacyResult (py : Interpreter) (where_ requestId : Str) (status : Nat) (reply : Dict) :
    Except Exc Json :=
  let ours := (Dict.get reply (str "id")).isStr requestId
  let error := Dict.get reply (str "error")
  if ours && !error.isNone then
    match rpcError py where_ error with
    | .rpcError message code data => .error (.rpcError message code data)
    | raised => if status = 200 then .error raised else .error (httpError where_ status)
  else if status ≠ 200 then .error (httpError where_ status)
  else if !ours then .error (idError py where_ requestId reply)
  else if !Dict.has reply (str "result") then
    .error (.fetchError (where_ ++ str ": a reply with neither result nor error"))
  else Dict.getItem reply (str "result")

/-- `_v2_result` -/
def v2Result (py : Interpreter) (where_ requestId : Str) (status : Nat) (reply : Dict) :
    Except Exc Json :=
  if status ≠ 200 then .error (httpError where_ status)
  else if !(Dict.get reply (str "id")).isStr requestId then
    .error (idError py where_ requestId reply)
  else if Dict.has reply (str "result") == Dict.has reply (str "error") then
    .error (.fetchError (where_ ++ str ": a 2.0 reply with " ++
      if Dict.has reply (str "result") then str "both result and error"
      else str "neither result nor error"))
  else if Dict.has reply (str "error") then do
    let error ← Dict.getItem reply (str "error")
    .error (rpcError py where_ error)
  else Dict.getItem reply (str "result")

/-- `_discriminate` -/
def discriminate (py : Interpreter) (where_ requestId : Str) (status : Nat) (reply : Dict) :
    Except Exc Json :=
  if !Dict.has reply (str "jsonrpc") then legacyResult py where_ requestId status reply
  else do
    let marker ← Dict.getItem reply (str "jsonrpc")
    if !marker.isStr (str "2.0") then
      if status ≠ 200 then .error (httpError where_ status)
      else .error (.fetchError (where_ ++ str ": json-rpc version " ++ py.repr marker ++
        str ", neither 2.0" ++ str " nor the legacy reply that carries no version at all"))
    else v2Result py where_ requestId status reply

/-- `BitcoinCoreRpcClient._result` -/
def result (py : Interpreter) (loads : Loads) (method url requestId : Str) (status : Nat)
    (payload : Bytes) : Except Exc Json := do
  let where_ := method ++ str " at " ++ url
  let reply ← replyObject loads where_ status payload
  discriminate py where_ requestId status reply

/-! ### What each reader can do -/

/-- An exception that is no answer: a plain refusal under a 200, the status under any other. -/
def Refused (status : Nat) (e : Exc) : Prop :=
  (status = 200 ∧ ∃ message, e = .fetchError message) ∨
    (status ≠ 200 ∧ ∃ message, e = .httpError message status)

/-- The object's `id` is the request's. -/
def Correlated (requestId : Str) (reply : Dict) : Prop :=
  Dict.get reply (str "id") = .string requestId

/-- An error object: a `code` that is an integer and a `message` that is a string. -/
def ReadableError (error : Json) (code : Int) (data : Json) : Prop :=
  ∃ members message, error = .object members ∧ Dict.get members (str "code") = .int code ∧
    Dict.get members (str "message") = .string message ∧
      data = Dict.get members (str "data")

theorem isStr_iff {value : Json} {text : Str} : value.isStr text = true ↔ value = .string text := by
  cases value <;> simp [Json.isStr]

theorem httpError_refused {where_ : Str} {status : Nat} (failed : status ≠ 200) :
    Refused status (httpError where_ status) := by
  unfold httpError
  split_ifs <;> exact .inr ⟨failed, _, rfl⟩

theorem fetchError_refused {message : Str} : Refused 200 (.fetchError message) :=
  .inl ⟨rfl, message, rfl⟩

/-- A refusal written the way the readers write one. -/
theorem refused_ite {status : Nat} {where_ : Str} {e : Exc}
    (refusal : ∃ message, e = .fetchError message) :
    Refused status (if status ≠ 200 then httpError where_ status else e) := by
  split_ifs with failed
  · exact httpError_refused failed
  · obtain ⟨message, rfl⟩ := refusal
    rw [not_not.mp failed]
    exact fetchError_refused

/-- `_rpc_error` answers an `RpcError` for an error object and a plain refusal for anything
else. -/
theorem rpcError_cases (py : Interpreter) (where_ : Str) (error : Json) :
    (∃ message code data, rpcError py where_ error = .rpcError message code data ∧
      ReadableError error code data) ∨
    ((∃ message, rpcError py where_ error = .fetchError message) ∧
      ∀ code data, ¬ ReadableError error code data) := by
  cases error with
  | object members =>
    cases code : Dict.get members (str "code") with
    | int number =>
      cases message : Dict.get members (str "message") with
      | string text =>
        left
        refine ⟨where_ ++ str ": " ++ text, number, Dict.get members (str "data"), ?_, members,
          text, rfl, code, message, rfl⟩
        simp only [rpcError, code, message]
      | _ =>
        right
        refine ⟨⟨where_ ++ str ": unreadable rpc error " ++ py.repr (.object members), by
          simp only [rpcError, code, message]⟩, ?_⟩
        rintro _ _ ⟨_, _, ⟨⟩, _, readable, _⟩
        rw [message] at readable
        cases readable
    | _ =>
      right
      refine ⟨⟨where_ ++ str ": unreadable rpc error " ++ py.repr (.object members), by
        simp only [rpcError, code]⟩, ?_⟩
      rintro _ _ ⟨_, _, ⟨⟩, readable, _⟩
      rw [code] at readable
      cases readable
  | _ =>
    right
    refine ⟨⟨_, rfl⟩, ?_⟩
    rintro _ _ ⟨_, _, ⟨⟩, _⟩

theorem unreadable_eq (where_ : Str) (cause : Exc) :
    ∃ message, unreadable where_ cause = .fetchError message := by
  unfold unreadable
  split_ifs <;> exact ⟨_, rfl⟩

/-- The parse answers the body's value or raises what is no answer. -/
theorem parsedJsonBody_cases {loads : Loads} (raises : LoadsRaises loads) (where_ : Str)
    (status : Nat) (payload : Bytes) :
    (∃ value, loads payload = .ok value ∧
      parsedJsonBody loads where_ status payload = .ok value) ∨
    (∃ raised e, loads payload = .error raised ∧
      parsedJsonBody loads where_ status payload = .error e ∧ Refused status e) := by
  unfold parsedJsonBody
  cases parsed : loads payload with
  | ok value => exact .inl ⟨value, rfl, rfl⟩
  | error raised =>
    have source := raises payload raised parsed
    refine .inr ⟨raised, ?_⟩
    have refusal (e : Exc) (plain : ∃ message, e = .fetchError message) :
        ∃ e', (if status ≠ 200 then .error (httpError where_ status) else .error e :
          Except Exc Json) = .error e' ∧ Refused status e' :=
      ⟨_, (apply_ite Except.error _ _ _).symm, refused_ite plain⟩
    have reported (e : Exc) : ∃ e', (if status ≠ 200 then .error (httpError where_ status)
        else .error (unreadable where_ e) : Except Exc Json) = .error e' ∧ Refused status e' :=
      refusal _ (unreadable_eq where_ e)
    cases raised with
    | unicodeDecodeError message =>
      obtain ⟨e, same, refused⟩ := refusal _ ⟨where_ ++ str ": a reply that is not utf-8", rfl⟩
      exact ⟨e, rfl, same, refused⟩
    | jsonDecodeError message =>
      obtain ⟨e, same, refused⟩ := refusal _
        ⟨where_ ++ str ": not json (" ++ message ++ str ")", rfl⟩
      exact ⟨e, rfl, same, refused⟩
    | fetchError message =>
      by_cases answered : status = 200
      · exact ⟨_, rfl, if_pos answered, .inl ⟨answered, message, rfl⟩⟩
      · exact ⟨_, rfl, if_neg answered, httpError_refused answered⟩
    | valueError message | btcRpcValueError message | recursionError message
    | decimalException message =>
      obtain ⟨e, same, refused⟩ := reported _
      exact ⟨e, rfl, same, refused⟩
    | _ => simp [Exc.FromLoads, Exc.isValueError, Exc.isRecursionError, Exc.isDecimalException]
        at source

/-- The parse answers a reply object where the body is one, and raises what is no answer
everywhere else. -/
theorem replyObject_cases {loads : Loads} (raises : LoadsRaises loads) (where_ : Str)
    (status : Nat) (payload : Bytes) :
    (∃ reply, loads payload = .ok (.object reply) ∧
      replyObject loads where_ status payload = .ok reply) ∨
    ((∀ reply, loads payload ≠ .ok (.object reply)) ∧
      ∃ e, replyObject loads where_ status payload = .error e ∧ Refused status e) := by
  unfold replyObject
  rcases parsedJsonBody_cases raises where_ status payload with
    ⟨value, parsed, answered⟩ | ⟨raised, e, parsed, answered, refused⟩
  · rw [parsed, answered]
    have shape (value : Json) : ∃ e, (if status ≠ 200 then .error (httpError where_ status)
        else .error (.fetchError (where_ ++ str ": not a json-rpc reply, but a " ++
          value.typeName)) : Except Exc Dict) = .error e ∧ Refused status e :=
      ⟨_, (apply_ite Except.error _ _ _).symm, refused_ite ⟨_, rfl⟩⟩
    cases value with
    | object reply => exact .inl ⟨reply, rfl, rfl⟩
    | _ => exact .inr ⟨by rintro _ ⟨⟩, shape _⟩
  · rw [parsed, answered]
    exact .inr ⟨by rintro _ ⟨⟩, e, rfl, refused⟩

/-! ### The law -/

/-- The rpc error a status and a reply object carry: a readable error object of the request's
own, under a 200 or in a reply without a version marker. -/
def Answers (requestId : Str) (status : Nat) (reply : Dict) (code : Int) (data : Json) : Prop :=
  Correlated requestId reply ∧ ReadableError (Dict.get reply (str "error")) code data ∧
    (status = 200 ∨ reply.lookup (str "jsonrpc") = none)

/-- What a reading of a reply object may end in. -/
def Classified (requestId : Str) (status : Nat) (reply : Dict) : Except Exc Json → Prop
  | .ok value =>
    status = 200 ∧ Correlated requestId reply ∧ reply.lookup (str "result") = some value
  | .error (.rpcError _ code data) => Answers requestId status reply code data
  | .error e => Refused status e ∧
    (status ≠ 200 → ∀ code data, ¬ Answers requestId status reply code data)

theorem getItem_eq_ok (reply : Dict) (name : Str) (has : Dict.has reply name = true) :
    ∃ value, reply.lookup name = some value ∧ Dict.getItem reply name = .ok value ∧
      Dict.get reply name = value := by
  obtain ⟨value, found⟩ := Option.isSome_iff_exists.mp has
  exact ⟨value, found, by simp only [Dict.getItem, found], by simp only [Dict.get, found,
    Option.getD_some]⟩

theorem classified_refused {requestId : Str} {status : Nat} {reply : Dict} {e : Exc}
    (refused : Refused status e)
    (silent : status ≠ 200 → ∀ code data, ¬ Answers requestId status reply code data) :
    Classified requestId status reply (.error e) := by
  rcases refused with ⟨answered, message, rfl⟩ | ⟨failed, message, rfl⟩
  · exact ⟨.inl ⟨answered, message, rfl⟩, silent⟩
  · exact ⟨.inr ⟨failed, message, rfl⟩, silent⟩

theorem classified_ite {requestId : Str} {status : Nat} {reply : Dict} {where_ : Str}
    {rest : Except Exc Json}
    (silent : status ≠ 200 → ∀ code data, ¬ Answers requestId status reply code data)
    (answered : status = 200 → Classified requestId status reply rest) :
    Classified requestId status reply
      (if status ≠ 200 then .error (httpError where_ status) else rest) := by
  split_ifs with failed
  · exact classified_refused (httpError_refused failed) silent
  · exact answered (not_not.mp failed)

theorem classified_fetchError {requestId : Str} {status : Nat} {reply : Dict} {message : Str}
    (answered : status = 200) :
    Classified requestId status reply (.error (.fetchError message)) :=
  ⟨.inl ⟨answered, message, rfl⟩, fun failed => absurd answered failed⟩

/-- The legacy dialect reads a readable error object of the request's own before the status. -/
theorem legacyResult_classified (py : Interpreter) (where_ requestId : Str) (status : Nat)
    (reply : Dict) (absent : reply.lookup (str "jsonrpc") = none) :
    Classified requestId status reply (legacyResult py where_ requestId status reply) := by
  simp only [legacyResult]
  by_cases errs : ((Dict.get reply (str "id")).isStr requestId &&
      !(Dict.get reply (str "error")).isNone) = true
  · rw [if_pos errs]
    simp only [Bool.and_eq_true, isStr_iff] at errs
    rcases rpcError_cases py where_ (Dict.get reply (str "error")) with
      ⟨message, code, data, raised, readable⟩ | ⟨⟨message, raised⟩, unreadable⟩
    · simp only [raised]
      exact ⟨errs.1, readable, .inr absent⟩
    · simp only [raised]
      rw [← ite_not]
      exact classified_ite (fun _ code data answers => unreadable code data answers.2.1)
        classified_fetchError
  · rw [if_neg errs]
    refine classified_ite (fun _ code data answers => errs ?_) fun answered => ?_
    · obtain ⟨correlated, ⟨members, message, error, _⟩, _⟩ := answers
      simp only [Bool.and_eq_true, isStr_iff]
      exact ⟨correlated, by rw [error]; rfl⟩
    · by_cases ours : (Dict.get reply (str "id")).isStr requestId = true
      · rw [ours, Bool.not_true, if_neg Bool.false_ne_true]
        by_cases has : Dict.has reply (str "result") = true
        · obtain ⟨value, found, item, _⟩ := getItem_eq_ok reply (str "result") has
          rw [has, Bool.not_true, if_neg Bool.false_ne_true, item]
          exact ⟨answered, isStr_iff.mp ours, found⟩
        · rw [if_pos (by simpa using has)]
          exact classified_fetchError answered
      · rw [if_pos (by simpa using ours)]
        exact classified_fetchError answered

/-- The 2.0 dialect reads the status first, and then the one of two members that is present. -/
theorem v2Result_classified (py : Interpreter) (where_ requestId : Str) (status : Nat)
    (reply : Dict) (present : reply.lookup (str "jsonrpc") ≠ none) :
    Classified requestId status reply (v2Result py where_ requestId status reply) := by
  unfold v2Result
  refine classified_ite (fun failed code data answers =>
    present (answers.2.2.resolve_left failed)) fun answered => ?_
  by_cases ours : (Dict.get reply (str "id")).isStr requestId = true
  · rw [ours, Bool.not_true, if_neg Bool.false_ne_true]
    by_cases both : (Dict.has reply (str "result") == Dict.has reply (str "error")) = true
    · rw [if_pos both]
      exact classified_fetchError answered
    · rw [if_neg both]
      by_cases errs : Dict.has reply (str "error") = true
      · obtain ⟨held, found, item, got⟩ := getItem_eq_ok reply (str "error") errs
        rw [if_pos errs, item]
        show Classified requestId status reply (.error (rpcError py where_ held))
        rcases rpcError_cases py where_ held with
          ⟨message, code, data, raised, readable⟩ | ⟨⟨message, raised⟩, _⟩
        · rw [raised]
          exact ⟨isStr_iff.mp ours, by rw [got]; exact readable, .inl answered⟩
        · rw [raised]
          exact classified_fetchError answered
      · have has : Dict.has reply (str "result") = true := by
          simp only [beq_iff_eq] at both
          rw [Bool.not_eq_true] at errs
          rw [errs, Bool.not_eq_false] at both
          exact both
        obtain ⟨value, found, item, _⟩ := getItem_eq_ok reply (str "result") has
        rw [if_neg errs, item]
        exact ⟨answered, isStr_iff.mp ours, found⟩
  · rw [if_pos (by simpa using ours)]
    exact classified_fetchError answered

/-- The dialect is the marker's presence, and a marker other than `2.0` is no answer. -/
theorem discriminate_classified (py : Interpreter) (where_ requestId : Str) (status : Nat)
    (reply : Dict) :
    Classified requestId status reply (discriminate py where_ requestId status reply) := by
  unfold discriminate
  by_cases marked : Dict.has reply (str "jsonrpc") = true
  · obtain ⟨marker, found, item, _⟩ := getItem_eq_ok reply (str "jsonrpc") marked
    have present : reply.lookup (str "jsonrpc") ≠ none := by simp [found]
    rw [marked, Bool.not_true, if_neg Bool.false_ne_true, item]
    show Classified requestId status reply (if _ then _ else _)
    by_cases other : (!marker.isStr (str "2.0")) = true
    · rw [if_pos other]
      exact classified_ite (fun failed code data answers =>
        present (answers.2.2.resolve_left failed)) classified_fetchError
    · rw [if_neg other]
      exact v2Result_classified py where_ requestId status reply present
  · rw [if_pos (by simpa using marked)]
    exact legacyResult_classified py where_ requestId status reply 
      (Option.not_isSome_iff_eq_none.mp marked)

/-- A reading ends as its reply object is classified, or refuses a body that is none. -/
theorem result_cases (py : Interpreter) {loads : Loads} (raises : LoadsRaises loads)
    (method url requestId : Str) (status : Nat) (payload : Bytes) :
    (∃ reply, loads payload = .ok (.object reply) ∧
      Classified requestId status reply (result py loads method url requestId status payload)) ∨
    ((∀ reply, loads payload ≠ .ok (.object reply)) ∧
      ∃ e, result py loads method url requestId status payload = .error e ∧ Refused status e) := by
  simp only [result]
  rcases replyObject_cases raises (method ++ str " at " ++ url) status payload with
    ⟨reply, parsed, answered⟩ | ⟨other, e, answered, refused⟩
  · refine .inl ⟨reply, parsed, ?_⟩
    rw [answered]
    exact discriminate_classified py _ requestId status reply
  · refine .inr ⟨other, e, ?_, refused⟩
    rw [answered]
    rfl

/-- Every reply is classified by one law. `_result` answers a value only under a 200 and only
for a reply object whose `id` is the request's, the one under `result`; raises an rpc error only
for a readable error object of the request's own, under a 200 or in a reply without a version
marker; raises the status exactly where it is not 200 and no such error applies; raises a plain
refusal only under a 200; and raises nothing else. -/
theorem result_classified (py : Interpreter) (loads : Loads) (method url requestId : Str)
    (status : Nat) (payload : Bytes) (raises : LoadsRaises loads) :
    (∀ value, result py loads method url requestId status payload = .ok value →
      status = 200 ∧ ∃ reply, loads payload = .ok (.object reply) ∧
        Correlated requestId reply ∧ reply.lookup (str "result") = some value) ∧
    (∀ message code data, result py loads method url requestId status payload =
        .error (.rpcError message code data) →
      ∃ reply, loads payload = .ok (.object reply) ∧ Answers requestId status reply code data) ∧
    ((∃ message, result py loads method url requestId status payload =
        .error (.httpError message status)) ↔
      status ≠ 200 ∧ ¬ ∃ reply code data, loads payload = .ok (.object reply) ∧
        Answers requestId status reply code data) ∧
    (∀ message reported, result py loads method url requestId status payload =
      .error (.httpError message reported) → reported = status) ∧
    (∀ message, result py loads method url requestId status payload =
      .error (.fetchError message) → status = 200) ∧
    (∀ e, result py loads method url requestId status payload = .error e →
      e.isFetchError = true) ∧
    (∀ reply, loads payload = .ok (.object reply) → ¬ Correlated requestId reply →
      (∀ value, result py loads method url requestId status payload ≠ .ok value) ∧
      ∀ message code data, result py loads method url requestId status payload ≠
        .error (.rpcError message code data)) := by
  rcases result_cases py raises method url requestId status payload with
    ⟨reply, parsed, classified⟩ | ⟨other, e, outcome, refused⟩
  · have same (reply' : Dict) (parsed' : loads payload = .ok (.object reply')) : reply' = reply := by
      rw [parsed] at parsed'
      cases parsed'
      rfl
    have silent (no : ∀ code data, ¬ Answers requestId status reply code data) :
        ¬ ∃ reply code data, loads payload = .ok (.object reply) ∧
          Answers requestId status reply code data := by
      rintro ⟨reply', code, data, parsed', answers⟩
      rw [same reply' parsed'] at answers
      exact no code data answers
    cases outcome : result py loads method url requestId status payload with
    | ok value =>
      rw [outcome] at classified
      obtain ⟨answered, correlated, found⟩ := classified
      have told (value' : Json) (same : (.ok value : Except Exc Json) = .ok value') :
          status = 200 ∧ ∃ reply, loads payload = .ok (.object reply) ∧
            Correlated requestId reply ∧ reply.lookup (str "result") = some value' := by
        cases same
        exact ⟨answered, reply, parsed, correlated, found⟩
      refine ⟨told, by simp, by simp [answered], by simp, by simp, by simp,
        fun reply' parsed' foreign => ?_⟩
      rw [same reply' parsed'] at foreign
      exact absurd correlated foreign
    | error e =>
      rw [outcome] at classified
      cases e with
      | rpcError message code data =>
        have answers : Answers requestId status reply code data := classified
        refine ⟨by simp, ?_, ?_, by simp, by simp, by simp [Exc.isFetchError],
          fun reply' parsed' foreign => ?_⟩
        · rintro _ _ _ ⟨⟩
          exact ⟨reply, parsed, answers⟩
        · simp only [reduceCtorEq, Except.error.injEq, exists_false, false_iff, not_and, not_not]
          exact fun _ => ⟨reply, code, data, parsed, answers⟩
        · rw [same reply' parsed'] at foreign
          exact absurd answers.1 foreign
      | httpError message reported =>
        obtain ⟨⟨_, _, ⟨⟩⟩ | ⟨failed, _, ⟨⟩⟩, no⟩ := classified
        refine ⟨by simp, by simp, ⟨fun _ => ⟨failed, silent (no failed)⟩, fun _ => ⟨_, rfl⟩⟩,
          by simp, by simp, by simp [Exc.isFetchError], by simp⟩
      | fetchError message =>
        obtain ⟨⟨answered, _⟩ | ⟨_, _, ⟨⟩⟩, _⟩ := classified
        exact ⟨by simp, by simp, by simp [answered], by simp, fun _ _ => answered,
          by simp [Exc.isFetchError], by simp⟩
      | _ => obtain ⟨⟨_, _, ⟨⟩⟩ | ⟨_, _, ⟨⟩⟩, _⟩ := classified
  · rw [outcome]
    rcases refused with ⟨answered, message, rfl⟩ | ⟨failed, message, rfl⟩
    · exact ⟨by simp, by simp, by simp [answered], by simp, fun _ _ => answered,
        by simp [Exc.isFetchError], fun reply parsed => absurd parsed (other reply)⟩
    · refine ⟨by simp, by simp, ⟨fun _ => ⟨failed, ?_⟩, fun _ => ⟨_, rfl⟩⟩, by simp, by simp,
        by simp [Exc.isFetchError], fun reply parsed => absurd parsed (other reply)⟩
      rintro ⟨reply, _, _, parsed, _⟩
      exact other reply parsed

/-! ### A reading names where it was made in its messages alone -/

theorem rpcError_alike {α : Type} (py : Interpreter) (first second : Str) (error : Json) :
    Alike (.error (rpcError py first error) : Except Exc α) (.error (rpcError py second error)) := by
  cases error with
  | object members =>
    simp only [rpcError]
    split <;> rfl
  | _ => rfl

theorem httpError_alike {α : Type} (first second : Str) (status : Nat) :
    Alike (.error (httpError first status) : Except Exc α) (.error (httpError second status)) := by
  unfold httpError
  split_ifs <;> rfl

theorem alike_ite {α : Type} {condition : Prop} [Decidable condition]
    {first second first' second' : Except Exc α} (yes : condition → Alike first first')
    (no : ¬ condition → Alike second second') :
    Alike (if condition then first else second) (if condition then first' else second') := by
  split_ifs with holds
  · exact yes holds
  · exact no holds

theorem legacyResult_alike (py : Interpreter) (first second requestId : Str) (status : Nat)
    (reply : Dict) :
    Alike (legacyResult py first requestId status reply)
      (legacyResult py second requestId status reply) := by
  simp only [legacyResult]
  refine alike_ite (fun _ => ?_) fun _ => alike_ite (fun _ => httpError_alike _ _ _) fun _ =>
    alike_ite (fun _ => rfl) fun _ => alike_ite (fun _ => rfl) fun _ => rfl
  rcases rpcError_cases py first (Dict.get reply (str "error")) with
    ⟨message, code, data, raised, readable⟩ | ⟨⟨message, raised⟩, unreadable⟩
  · obtain ⟨other, same⟩ := alike_rpcError (raised ▸ @rpcError_alike Json py first second
      (Dict.get reply (str "error")))
    simp only [raised, Except.error.inj same]
    rfl
  · rcases rpcError_cases py second (Dict.get reply (str "error")) with
      ⟨_, code, data, _, readable⟩ | ⟨⟨other, same⟩, _⟩
    · exact absurd readable (unreadable code data)
    · simp only [raised, same]
      exact alike_ite (fun _ => rfl) fun _ => httpError_alike _ _ _

theorem v2Result_alike (py : Interpreter) (first second requestId : Str) (status : Nat)
    (reply : Dict) :
    Alike (v2Result py first requestId status reply)
      (v2Result py second requestId status reply) := by
  unfold v2Result
  refine alike_ite (fun _ => httpError_alike _ _ _) fun _ => alike_ite (fun _ => rfl) fun _ =>
    alike_ite (fun _ => rfl) fun _ => alike_ite (fun _ => ?_) fun _ => rfl
  cases Dict.getItem reply (str "error") with
  | error e => rfl
  | ok error => exact rpcError_alike py first second error

theorem discriminate_alike (py : Interpreter) (first second requestId : Str) (status : Nat)
    (reply : Dict) :
    Alike (discriminate py first requestId status reply)
      (discriminate py second requestId status reply) := by
  unfold discriminate
  refine alike_ite (fun _ => legacyResult_alike py first second requestId status reply) fun _ => ?_
  cases Dict.getItem reply (str "jsonrpc") with
  | error e => rfl
  | ok marker =>
    exact alike_ite (fun _ => alike_ite (fun _ => httpError_alike _ _ _) fun _ => rfl) fun _ =>
      v2Result_alike py first second requestId status reply

/-- A legacy reply as Core writes one for a call that failed. -/
def legacyErrorBody : Bytes :=
  str "\x7b\"result\":null,\"error\":\x7b\"code\":-8,\"message\":\"no\"\x7d,\"id\":\"a\"\x7d"

/-- Its reply to a call it served. -/
def legacyValueBody : Bytes :=
  str "\x7b\"result\":[7],\"error\":null,\"id\":\"a\"\x7d"

/-- Under an HTTP 500 the call is answered by the error object and not by the status, and under a 200
by the result. -/
theorem result_classified_legacy :
    (result cpython (loads cpython) (str "m") (str "u") (str "a") 500 legacyErrorBody =
        .error (.rpcError (str "m at u: no") (-8) .null) ∧
      ∃ reply, loads cpython legacyErrorBody = .ok (.object reply) ∧
        Answers (str "a") 500 reply (-8) .null) ∧
    result cpython (loads cpython) (str "m") (str "u") (str "a") 200 legacyValueBody =
        .ok (.array [.int 7]) ∧
      ∃ reply, loads cpython legacyValueBody = .ok (.object reply) ∧ Correlated (str "a") reply ∧
        reply.lookup (str "result") = some (.array [.int 7]) := by
  have refused : result cpython (loads cpython) (str "m") (str "u") (str "a") 500
      legacyErrorBody = .error (.rpcError (str "m at u: no") (-8) .null) := by
    decide +kernel
  have answered : result cpython (loads cpython) (str "m") (str "u") (str "a") 200
      legacyValueBody = .ok (.array [.int 7]) := by
    decide +kernel
  refine ⟨⟨refused, ?_⟩, answered, ?_⟩
  · exact (result_classified cpython (loads cpython) (str "m") (str "u") (str "a") 500
      legacyErrorBody (loads_raises cpython)).2.1 _ _ _ refused
  · exact ((result_classified cpython (loads cpython) (str "m") (str "u") (str "a") 200
      legacyValueBody (loads_raises cpython)).1 _ answered).2

end BitcoinCoreRpc
