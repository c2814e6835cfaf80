/-
This file models `call`: the request it builds, the credential it sends with it, the one
exchange over the client's transport, and the reading of what came back; and the check of a
chain of either client, which is one such exchange.

A credential is the user and password the client was built with, or the line of the
cookie file, read at each call. What is at the path of that file is a parameter, as the
world the exchange happens in is. Whatever goes wrong before the exchange is an error of
the caller's own, but for a cookie file that is none.
-/

import BitcoinCoreRpc.AssertChain
import BitcoinCoreRpc.Batch
import BitcoinCoreRpc.Parameters
import BitcoinCoreRpc.Rest
import BitcoinCoreRpc.Wallet

namespace BitcoinCoreRpc

/-! ### The credential -/

/-- `_MAX_COOKIE_SIZE` -/
def maxCookieSize : Nat := 4096

/-- What opening and reading a cookie file comes to. -/
inductive CookieFile
  /-- A path that is not opened: the filesystem encoding refuses it, or there is a NUL in it. -/
  | unencodable
  /-- `FileNotFoundError` -/
  | absent
  /-- Any other `OSError`, by its text. -/
  | failed (message : Str)
  | irregular
  | regular (raw : Bytes)

/-- `text.strip()`, of an ASCII text. -/
def strip (text : Str) : Str :=
  ((text.dropWhile isLatin1Space).reverse.dropWhile isLatin1Space).reverse

/-- `cookie_auth`. A `CookieNotFoundError` is the `FetchError` it derives from. -/
def cookieAuth (cookiePath : Str) : CookieFile → Except Exc Str
  | .unencodable => .error (.fetchError (str "unreadable rpc cookie file: a path the filesystem" ++
      str " encoding refuses, or one with a NUL"))
  | .absent => .error (.fetchError (str "no rpc cookie file " ++ cookiePath ++
      str ": bitcoind writes one" ++ str " while it runs with its rpc server enabled"))
  | .failed message => .error (.fetchError (str "unreadable rpc cookie file " ++ cookiePath ++
      str ": " ++ message))
  | .irregular => .error (.fetchError (str "unreadable rpc cookie file " ++ cookiePath ++ str ":" ++
      str " not a regular file"))
  | .regular raw =>
    if maxCookieSize < raw.length then
      .error (.fetchError (str "oversized rpc cookie file " ++ cookiePath ++ str ":" ++
        str " more than the " ++ natText maxCookieSize ++ str " bytes one can be"))
    else if raw.any (128 ≤ ·) then
      .error (.fetchError (str "non-ascii rpc cookie file " ++ cookiePath))
    else if (strip raw).contains 0x0A || (strip raw).contains 0x0D then
      .error (.fetchError (str "malformed rpc cookie file " ++ cookiePath ++ str ": several lines"))
    else if !(strip raw).contains 0x3A then
      .error (.fetchError (str "malformed rpc cookie file " ++ cookiePath ++ str ": no ':' in it"))
    else .ok (strip raw)

/-- A digit of base64. -/
def base64Digit (value : Nat) : Nat :=
  if value < 26 then 0x41 + value
  else if value < 52 then 0x61 + (value - 26)
  else if value < 62 then 0x30 + (value - 52)
  else if value = 62 then 0x2B else 0x2F

/-- `b64encode(octets).decode("ascii")` -/
def b64encode : Bytes → Str
  | [] => []
  | [first] => [base64Digit (first / 4), base64Digit (first % 4 * 16), 0x3D, 0x3D]
  | [first, second] =>
    [base64Digit (first / 4), base64Digit (first % 4 * 16 + second / 16),
      base64Digit (second % 16 * 4), 0x3D]
  | first :: second :: third :: rest =>
    base64Digit (first / 4) :: base64Digit (first % 4 * 16 + second / 16) ::
      base64Digit (second % 16 * 4 + third / 64) :: base64Digit (third % 64) :: b64encode rest

example : b64encode (str "user:pass") = str "dXNlcjpwYXNz" ∧ b64encode (str "a:") = str "YTo=" := by
  decide +kernel

namespace RpcClient

/-- The `user:password` of `auth_header`. -/
def credential (client : RpcClient) (cookie : CookieFile) : Except Exc Str :=
  match client.cookiePath with
  | some cookiePath => cookieAuth cookiePath cookie
  | none => .ok (client.user.getD (str "None") ++ str ":" ++ client.password.getD (str "None"))

/-- `auth_header` -/
def authHeader (client : RpcClient) (cookie : CookieFile) : Except Exc Str := do
  let credential ← client.credential cookie
  if credential.all fun code => code < 0xD800 || (0xE000 ≤ code && code < 0x110000) then
    return str "Basic " ++ b64encode (Utf8.encode credential)
  else .error (.btcRpcValueError (str "rpc user or password that utf-8 cannot encode"))

/-- `_headers`, with what `auth_header` answers. -/
def headers (authorization : Str) : List (Str × Str) :=
  [(str "Content-Type", str "application/json"), (str "Authorization", authorization),
    (str "User-Agent", userAgent)]

/-! ### The call -/

/-- `_request`, with the id drawn for it: the method, the body and the timeout. -/
def request (py : Interpreter) (heap : Heap) (frames : Nat) (client : RpcClient) (requestId : Str)
    (method params : Ref) (requestTimeout : Option Timeout) : Except Exc (Str × Bytes × Timeout) :=
  match heap.object method with
  | .str name => do
    let timeout := requestTimeout.getD client.timeout
    assertValidTimeout timeout (str "rpc request_timeout")
    let member ← paramsMember (heap.object params)
    assertJsonParams heap (maxParamsDepth + 1) [] (str "params") none member
    let written := heap.allocRequest requestId method member
    let body ← requestBody py written.1 frames (written.1.object written.2)
    return (name, body, timeout)
  | other => .error (.btcRpcTypeError (str "rpc method that is not a string, but a" ++ str " " ++
      other.typeName))

/-- What the transport is handed. -/
def posted (world : World) (client : RpcClient) (body : Bytes) (authorization : Str) : Request :=
  ⟨client.url, str "POST", world.urllib.selector client.url, some body, headers authorization⟩

/-- `call` -/
def call (world : World) (heap : Heap) (frames : Nat) (client : RpcClient) (cookie : CookieFile)
    (requestId : Str) (method params : Ref) (requestTimeout : Option Timeout) (maxBodySize : Int)
    (session : Session) : Except Exc Json × Session :=
  match client.request world.py heap frames requestId method params requestTimeout with
  | .error e => (.error e, session)
  | .ok (name, body, timeout) =>
    match client.authHeader cookie with
    | .error e => (.error e, session)
    | .ok authorization =>
      match httpRequest world client.url (some body) (headers authorization) timeout maxBodySize
          client.transport session with
      | (.error e, session) => (.error e, session)
      | (.ok (status, payload), session) =>
        (result world.py (loads world.py) name client.url requestId status payload, session)

/-- `DEFAULT_MAX_BODY_SIZE` -/
def defaultMaxBodySize : Nat := 2 * 4000000 + 1024

/-- The objects of `self.call("getblockchaininfo")`: the method, and its parameters left out. -/
def chainInfoHeap : Heap := [.str (str "getblockchaininfo"), .none]

/-- `assert_chain` -/
def assertChain (world : World) (hexError : Str → Str) (frames : Nat) (client : RpcClient)
    (cookie : CookieFile) (requestId : Str) (chain : Str) (signetChallenge : Option Challenge)
    (session : Session) : Except Exc Unit × Session :=
  rpcAssertChain world.py hexError
    (client.call world chainInfoHeap frames cookie requestId 0 1 none defaultMaxBodySize) client.url
    chain signetChallenge session

end RpcClient

/-- `BitcoinCoreRestClient.assert_chain` -/
def RestClient.assertChain (world : World) (hexError : Str → Str) (client : RestClient) (chain : Str)
    (signetChallenge : Option Challenge) (session : Session) : Except Exc Unit × Session :=
  restAssertChain world.py hexError
    (client.getJson world (loads world.py) (str "/chaininfo.json") none RpcClient.defaultMaxBodySize)
    client.url chain signetChallenge session

/-! ### What comes before the exchange -/

section Before

variable {py : Interpreter} {heap : Heap} {frames : Nat} {client : RpcClient} {requestId : Str}
  {method params : Ref} {requestTimeout : Option Timeout} {cookie : CookieFile} {e : Exc}

theorem requestJson_own {value : Obj} (raised : requestJson py heap frames value = .error e) :
    e.isFetchError = false := by
  induction frames generalizing value e with
  | zero =>
    cases raised
    rfl
  | succ frames inductionHypothesis =>
    unfold requestJson at raised
    split at raised
    · unfold decimalJson at raised
      split at raised
      · split_ifs at raised
        cases raised
        rfl
      · cases raised
        rfl
    · rcases bind_eq_error raised with collected | ⟨_, _, ended⟩
      · obtain ⟨member, _, failed⟩ := mapM_eq_error collected
        simp only at failed
        split at failed
        · rcases bind_eq_error failed with below | ⟨_, _, ended⟩
          · exact inductionHypothesis below
          · cases ended
        · cases failed
          rfl
      · cases ended
    · rcases bind_eq_error raised with collected | ⟨_, _, ended⟩
      · obtain ⟨item, _, failed⟩ := mapM_eq_error collected
        exact inductionHypothesis failed
      · cases ended
    · rcases bind_eq_error raised with collected | ⟨_, _, ended⟩
      · obtain ⟨item, _, failed⟩ := mapM_eq_error collected
        exact inductionHypothesis failed
      · cases ended
    · unfold dumpsScalar dumpsInt at raised
      split at raised <;> (try split_ifs at raised) <;> cases raised <;> rfl

theorem requestBody_own {value : Obj} (raised : requestBody py heap frames value = .error e) :
    e.isFetchError = false := by
  unfold requestBody at raised
  split at raised
  · cases raised
  · rename_i cause refused
    split_ifs at raised
    · cases raised
      rfl
    · cases raised
      exact requestJson_own refused

theorem paramsMember_own {value : Obj} (raised : paramsMember value = .error e) :
    e.isFetchError = false := by
  unfold paramsMember at raised
  split at raised <;> cases raised <;> rfl

theorem assertJsonParams_own {left : Nat} {value : Obj}
    (raised : assertJsonParams heap left [] (str "params") none value = .error e) :
    e.isFetchError = false := by
  have chain : Chain heap [] none value := ⟨by rintro _ ⟨⟩, by rintro _ ⟨⟩⟩
  cases assertJsonParams_refuses chain raised <;> rfl

/-- What is wrong with a request is the caller's. -/
theorem request_own (raised : client.request py heap frames requestId method params requestTimeout =
    .error e) : e.isFetchError = false := by
  unfold RpcClient.request at raised
  split at raised
  · rcases bind_eq_error raised with timed | ⟨_, _, afterTimed⟩
    · unfold assertValidTimeout at timed
      split_ifs at timed
      cases timed
      rfl
    rcases bind_eq_error afterTimed with shaped | ⟨member, _, afterShaped⟩
    · exact paramsMember_own shaped
    rcases bind_eq_error afterShaped with walked | ⟨_, _, afterWalked⟩
    · exact assertJsonParams_own walked
    rcases bind_eq_error afterWalked with written | ⟨_, _, ended⟩
    · exact requestBody_own written
    · cases ended
  · cases raised
    rfl

/-- A request that is built is the method's, under a timeout that is checked. -/
theorem request_eq_ok {name : Str} {body : Bytes} {timeout : Timeout}
    (built : client.request py heap frames requestId method params requestTimeout =
      .ok (name, body, timeout)) :
    heap.object method = .str name ∧ 0 < timeout.seconds ∧ timeout.seconds ≤ maxTimeout := by
  unfold RpcClient.request at built
  split at built
  · rename_i text named
    obtain ⟨_, timed, afterTimed⟩ := bind_eq_ok built
    obtain ⟨_, _, afterShaped⟩ := bind_eq_ok afterTimed
    obtain ⟨_, _, afterWalked⟩ := bind_eq_ok afterShaped
    obtain ⟨_, _, ended⟩ := bind_eq_ok afterWalked
    cases ended
    unfold assertValidTimeout at timed
    split_ifs at timed with valid
    exact ⟨named, valid⟩
  · cases built

theorem base64Digit_ascii (value : Nat) : 0x2B ≤ base64Digit value ∧ base64Digit value < 0x7F := by
  unfold base64Digit
  split_ifs <;> omega

theorem b64encode_ascii {octets : Bytes} {code : Nat} (member : code ∈ b64encode octets) :
    0x2B ≤ code ∧ code < 0x7F := by
  induction octets using b64encode.induct with
  | case1 => cases member
  | case2 first | case3 first second =>
    simp only [b64encode, List.mem_cons, List.not_mem_nil, or_false] at member
    rcases member with rfl | rfl | rfl | rfl <;>
      first | exact base64Digit_ascii _ | decide
  | case4 first second third rest inductionHypothesis =>
    simp only [b64encode, List.mem_cons] at member
    rcases member with rfl | rfl | rfl | rfl | later
    all_goals first | exact base64Digit_ascii _ | exact inductionHypothesis later

/-- The headers of a credential are ones that are sent. -/
theorem headers_valid {authorization : Str} (authorized : client.authHeader cookie = .ok authorization) :
    assertValidHeaders (RpcClient.headers authorization) = .ok () := by
  obtain ⟨credential, _, afterCredential⟩ := bind_eq_ok authorized
  split_ifs at afterCredential
  cases afterCredential
  have plain (code : Nat) (member : code ∈ str "Basic " ++ b64encode (Utf8.encode credential)) :
      0x20 ≤ code ∧ code < 0x7F := by
    have scheme : ∀ code ∈ str "Basic ", 0x20 ≤ code ∧ code < 0x7F := by decide +kernel
    rcases List.mem_append.mp member with front | digits
    · exact scheme code front
    · have bounds := b64encode_ascii digits
      omega
  have quiet : ((str "Basic " ++ b64encode (Utf8.encode credential)).any fun code =>
      code == 0x0D || code == 0x0A || code == 0 || 256 ≤ code) = false := by
    rw [List.any_eq_false]
    intro code member
    have bounds := plain code member
    simp only [Bool.or_eq_true, beq_iff_eq, decide_eq_true_eq]
    omega
  unfold RpcClient.headers
  rw [assertValidHeaders, if_neg (by decide +kernel), if_neg (by decide +kernel), assertValidHeaders,
    if_neg (by decide +kernel), quiet, if_neg Bool.false_ne_true]
  decide +kernel

end Before

end BitcoinCoreRpc
