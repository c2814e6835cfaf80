/-
This file models the client of Core's rest interface, and the request target it asks
for a resource under.

The url of a resource is the base url without its trailing slashes, then `/rest`, then
the caller's path, and is not checked again. The constructor refuses a base url with a
query or a fragment by the text of each, so that a question mark or a number sign with
nothing after it is let through. The main result says over every accepted base url that
those are exactly the ones a resource is not asked for under.
-/

import BitcoinCoreRpc.Endpoint
import BitcoinCoreRpc.Reply

namespace BitcoinCoreRpc

/-! ### The client -/

/-- `_rest_url`, of a path that is a string. -/
def restUrl (baseUrl path : Str) : Except Exc Str :=
  if path.head? ≠ some 0x2F then
    .error (.btcRpcValueError (str "rest path that does not start with '/'"))
  else .ok (UrlText.rstrip 0x2F baseUrl ++ str "/rest" ++ path)

/-- A `BitcoinCoreRestClient`. -/
structure RestClient where
  url : Str
  timeout : Timeout
  transport : Transport

/-- `BitcoinCoreRestClient(url, timeout=..., transport=...)` -/
def RestClient.new (lib : Urlparse) (url : Str) (timeout : Timeout) (transport : Transport) :
    Except Exc RestClient :=
  match checkedUrl lib .rest url with
  | .error e => .error e
  | .ok url =>
    match assertValidTimeout timeout (str "rest timeout") with
    | .error e => .error e
    | .ok () => .ok ⟨url, timeout, transport⟩

theorem RestClient.new_eq_ok {lib : Urlparse} {url : Str} {timeout : Timeout} {transport : Transport}
    {client : RestClient} (built : RestClient.new lib url timeout transport = .ok client) :
    client = ⟨url, timeout, transport⟩ ∧ (∃ parts host port, Accepted lib url parts host port) ∧
      0 < timeout.seconds ∧ timeout.seconds ≤ maxTimeout := by
  unfold RestClient.new at built
  split at built
  · cases built
  rename_i answer checked
  obtain ⟨rfl, accepted⟩ := checkedUrl_eq_ok checked
  split at built
  · cases built
  rename_i valid
  cases built
  unfold assertValidTimeout at valid
  split_ifs at valid with waits
  exact ⟨rfl, accepted, waits⟩

/-- `USER_AGENT` -/
def userAgent : Str := str "bitcoin-core-rpc"

namespace RestClient

/-- `_get` -/
def get (world : World) (client : RestClient) (path : Str) (requestTimeout : Option Timeout)
    (maxBodySize : Int) (session : Session) : Except Exc (Str × Nat × Bytes) × Session :=
  match restUrl client.url path with
  | .error e => (.error e, session)
  | .ok url =>
    let timeout := requestTimeout.getD client.timeout
    match assertValidTimeout timeout (str "rest request_timeout") with
    | .error e => (.error e, session)
    | .ok () =>
      let (answer, session) := httpRequest world url none [(str "User-Agent", userAgent)] timeout
        maxBodySize client.transport session
      (answer.map fun (status, payload) =>
        (str "GET " ++ path ++ str " at " ++ client.url, status, payload), session)

/-- `get_bin` -/
def getBin (world : World) (client : RestClient) (path : Str) (requestTimeout : Option Timeout)
    (maxBodySize : Int) (session : Session) : Except Exc Bytes × Session :=
  match client.get world path requestTimeout maxBodySize session with
  | (.error e, session) => (.error e, session)
  | (.ok (where_, status, payload), session) =>
    if status ≠ 200 then (.error (httpError where_ status), session) else (.ok payload, session)

/-- `get_json` -/
def getJson (world : World) (loads : Loads) (client : RestClient) (path : Str)
    (requestTimeout : Option Timeout) (maxBodySize : Int) (session : Session) :
    Except Exc Json × Session :=
  match client.get world path requestTimeout maxBodySize session with
  | (.error e, session) => (.error e, session)
  | (.ok (where_, status, payload), session) =>
    if status ≠ 200 then (.error (httpError where_ status), session)
    else (parsedJsonBody loads where_ status payload, session)

/-- The one request of a `_get`: what the client's transport is called with. -/
def Asks (world : World) (client : RestClient) (path : Str) (requestTimeout : Option Timeout)
    (maxBodySize : Int) (session : Session) (request : Request) : Prop :=
  ∃ where_ deadline,
    let sent := client.transport.call world request (requestTimeout.getD client.timeout) maxBodySize
      session.ticked
    let answer := readSent world where_ deadline maxBodySize sent.1 sent.2
    client.get world path requestTimeout maxBodySize session =
      (answer.1.map fun got => (str "GET " ++ path ++ str " at " ++ client.url, got.1, got.2), answer.2)

end RestClient

/-! ### The request target -/

/-- A path a resource is asked for under: from a slash on, without a number sign, of printable ASCII
characters that are no space. -/
structure Resource (path : Str) : Prop where
  slash : ∃ rest, path = 0x2F :: rest
  noFragment : 0x23 ∉ path
  printable : ∀ code ∈ path, 0x20 < code ∧ code < 0x7F

section Target

variable {lib : Urlparse} {baseUrl path name : Str} {parts : UrlText.Parts} {host : Str}
  {port : Option Nat}

/-- Stripped of its slashes it is still. -/
theorem rooted_stripped {base : Str} (slash : base = [] ∨ ∃ more, base = 0x2F :: more) (back : Str) :
    UrlText.rstrip 0x2F base = [] ∨
      UrlText.rooted (UrlText.rstrip 0x2F base ++ back) = UrlText.rstrip 0x2F base ++ back := by
  obtain ⟨run, same, _⟩ := UrlText.exists_rstrip 0x2F base
  rcases stripped : UrlText.rstrip 0x2F base with _ | ⟨first, more⟩
  · exact .inl rfl
  · right
    rw [stripped] at same
    rcases slash with rfl | ⟨rest, rfl⟩
    · cases same
    · obtain rfl : 0x2F = first := (List.cons.inj same).1
      exact UrlText.rooted_slash _

/-- A target that ends with the base's path and marks has no `/rest`. -/
theorem rooted_ne_composed {base marks : Str} (slash : base = [] ∨ ∃ more, base = 0x2F :: more)
    (quiet : 0x72 ∉ marks) (path : Str) :
    UrlText.rooted (base ++ marks) ≠ UrlText.rstrip 0x2F base ++ (str "/rest" ++ path) := by
  intro same
  obtain ⟨run, whole, slashes⟩ := UrlText.exists_rstrip 0x2F base
  have present : 0x72 ∈ str "/rest" ++ path := List.mem_append_left _ (by decide)
  have absent : 0x72 ∉ run ++ marks := by
    intro member
    rcases List.mem_append.mp member with inRun | inMarks
    · cases slashes _ inRun
    · exact quiet inMarks
  rcases rooted_stripped slash (run ++ marks) with empty | kept
  · rw [empty, List.nil_append] at same whole
    rw [whole] at same
    rcases UrlText.mem_rooted (same.symm ▸ present) with other | inRun
    · cases other
    · exact absent inRun
  · have ends : UrlText.rstrip 0x2F base ++ (run ++ marks) =
        UrlText.rstrip 0x2F base ++ (str "/rest" ++ path) := by
      rw [← kept, ← List.append_assoc, ← whole, same]
    exact absent (List.append_cancel_left ends ▸ present)

/-- Where the base url ends with a number sign, the target ends there. -/
theorem selector_signed {netloc front rest : Str}
    (spelled : UrlText.Spelled name netloc (front ++ [0x23])) (quiet : 0x23 ∉ rest)
    (noSign : 0x23 ∉ front) :
    UrlText.selector (UrlText.spell name netloc (UrlText.rstrip 0x2F (front ++ [0x23]) ++ rest)) =
      UrlText.rooted front := by
  have whole : UrlText.rstrip 0x2F (front ++ [0x23]) = front ++ [0x23] :=
    UrlText.rstrip_append (by decide)
  rw [whole, List.append_assoc, List.singleton_append,
    UrlText.selector_fragment spelled.front noSign quiet]

/-- The target of what is composed, where the base url ends with its path and the marks of an empty
query and an empty fragment: the path without its trailing slashes, `/rest` and the resource's, where
there are no marks, and anything else where there are. -/
theorem selector_composed_iff {netloc base marks : Str}
    (spelled : UrlText.Spelled name netloc (base ++ marks)) (resource : Resource path)
    (noMark : 0x3F ∉ base) (noSign : 0x23 ∉ base)
    (shape : marks = [] ∨ marks = [0x3F] ∨ marks = [0x23] ∨ marks = [0x3F, 0x23]) :
    UrlText.selector (UrlText.spell name netloc
        (UrlText.rstrip 0x2F (base ++ marks) ++ (str "/rest" ++ path))) =
      UrlText.rstrip 0x2F base ++ (str "/rest" ++ path) ↔ marks = [] := by
  have slash := base_slash spelled.front noMark noSign
  have quietRest : 0x23 ∉ str "/rest" ++ path := by
    intro member
    rcases List.mem_append.mp member with fixed | inPath
    · revert fixed
      decide
    · exact resource.noFragment inPath
  have composed := extended_spelled spelled
    (⟨_, rfl⟩ : ∃ rest, str "/rest" ++ path = 0x2F :: rest)
  rcases shape with rfl | rfl | rfl | rfl
  · refine iff_of_true ?_ rfl
    rw [List.append_nil] at composed ⊢
    rw [UrlText.selector_spell composed fun member => ?_]
    · rcases rooted_stripped slash (str "/rest" ++ path) with empty | kept
      · rw [empty, List.nil_append]
        exact UrlText.rooted_slash _
      · exact kept
    · rcases List.mem_append.mp member with stripped | appended
      · exact noSign (UrlText.mem_rstrip stripped)
      · exact quietRest appended
  · have whole : UrlText.rstrip 0x2F (base ++ [0x3F]) = base ++ [0x3F] :=
      UrlText.rstrip_append (by decide)
    rw [whole] at composed ⊢
    refine iff_of_false (fun same => ?_) (List.cons_ne_nil _ _)
    rw [UrlText.selector_spell composed fun member => ?_] at same
    · obtain ⟨run, together, _⟩ := UrlText.exists_rstrip 0x2F base
      have shorter : (UrlText.rstrip 0x2F base).length ≤ base.length := by
        have sum := congrArg List.length together
        rw [List.length_append] at sum
        omega
      have longer := UrlText.length_rooted (base ++ [0x3F] ++ (str "/rest" ++ path))
      simp only [same, List.length_append, List.length_singleton] at longer
      omega
    · rcases List.mem_append.mp member with front | appended
      · rcases List.mem_append.mp front with inBase | inMarks
        · exact noSign inBase
        · cases List.mem_singleton.mp inMarks
      · exact quietRest appended
  · refine iff_of_false ?_ (List.cons_ne_nil _ _)
    have absent := rooted_ne_composed slash List.not_mem_nil path
    rw [List.append_nil] at absent
    rwa [selector_signed spelled quietRest noSign]
  · refine iff_of_false ?_ (List.cons_ne_nil _ _)
    have together : base ++ [0x3F, 0x23] = base ++ [0x3F] ++ [0x23] := by
      rw [List.append_assoc, List.singleton_append]
    rw [together] at spelled ⊢
    rw [selector_signed spelled quietRest fun member => ?_]
    · exact rooted_ne_composed slash (by decide) path
    · rcases List.mem_append.mp member with inBase | inMarks
      · exact noSign inBase
      · cases List.mem_singleton.mp inMarks

/-- The url of a resource is one a transport splits, and its target is the base url's path without
its trailing slashes, `/rest` and the resource's exactly where the base url has neither a question
mark nor a number sign. -/
theorem restUrl_target (accepted : Accepted lib baseUrl parts host port) (resource : Resource path) :
    ∃ url composed, restUrl baseUrl path = .ok url ∧ Splits lib url composed host port ∧
      (UrlText.selector url = UrlText.rstrip 0x2F parts.path ++ str "/rest" ++ path ↔
        0x3F ∉ baseUrl ∧ 0x23 ∉ baseUrl) := by
  obtain ⟨name, marks, spelled, rfl, noMark, noSign, shape, marked⟩ := accepted.spelled
  have authority := netloc_ne_nil accepted.toSplits
  have printable : ∀ code ∈ str "/rest" ++ path, 0x20 < code ∧ code < 0x7F := by
    intro code member
    rcases List.mem_append.mp member with fixed | inPath
    · have letters : ∀ code ∈ str "/rest", 0x20 < code ∧ code < 0x7F := by decide
      exact letters code fixed
    · exact resource.printable code inPath
  have splits := extended_splits spelled accepted.toSplits ⟨_, rfl⟩ printable
  refine ⟨_, _, if_neg ?_, by rw [List.append_assoc, extended_eq spelled authority]; exact splits, ?_⟩
  · obtain ⟨rest, rfl⟩ := resource.slash
    exact not_not.mpr rfl
  · rw [marked, List.append_assoc, List.append_assoc, extended_eq spelled authority]
    exact selector_composed_iff spelled resource noMark noSign shape

end Target

/-- For every base url the constructor of the rest client accepts and every path that can be sent,
`get_bin` and `get_json` make one request, whose target is the base url's path without its trailing
slashes, `/rest` and the path, unchanged, exactly where the base url has neither a question mark nor a
number sign: one with nothing after it is accepted and puts the path into a query or loses it with a
fragment. -/
theorem restClient_target_iff {lib : Urlparse} {url path : Str} {timeout : Timeout}
    {transport : Transport} {client : RestClient}
    (built : RestClient.new lib url timeout transport = .ok client) (resource : Resource path)
    (world : World) (standard : world.urllib = lib.urllib) (requestTimeout : Option Timeout)
    (waits : ∀ timeout, requestTimeout = some timeout →
      0 < timeout.seconds ∧ timeout.seconds ≤ maxTimeout)
    (maxBodySize : Nat) (session : Session) :
    ∃ parts, lib.urlsplit url = some parts ∧
      ∃ request, client.Asks world path requestTimeout maxBodySize session request ∧
        (request.selector = UrlText.rstrip 0x2F parts.path ++ str "/rest" ++ path ↔
          0x3F ∉ url ∧ 0x23 ∉ url) := by
  obtain ⟨rfl, ⟨parts, host, port, accepted⟩, own⟩ := RestClient.new_eq_ok built
  have given : 0 < (requestTimeout.getD timeout).seconds ∧
      (requestTimeout.getD timeout).seconds ≤ maxTimeout := by
    cases requestTimeout with
    | none => exact own
    | some other => exact waits other rfl
  obtain ⟨composed, parts', joined, splits, target⟩ := restUrl_target accepted resource
  obtain ⟨request, _, selected, run⟩ := @httpRequest_from world composed none
    [(str "User-Agent", userAgent)] (requestTimeout.getD timeout) maxBodySize session _
    (standard ▸ splits.splitUrl) (by decide) given transport
  refine ⟨parts, accepted.split, request, ⟨shownUrl parts'.scheme host port,
    world.clock session.tick + (requestTimeout.getD timeout).seconds, ?_⟩, ?_⟩
  · simp only [RestClient.get, joined, assertValidTimeout, if_pos given, run]
  · rw [selected, standard]
    exact target

/-- Under a base url with a path, a resource is asked for under that path. -/
theorem restClient_target_iff_node :
    ∃ request, RestClient.Asks { promptly moved with urllib := ascii.urllib }
        ⟨str "http://localhost:8332/node/", ⟨30, str "30.0"⟩, .urlopen⟩ (str "/chaininfo.json") none 100
        Session.new request ∧
      request.selector = str "/node/rest/chaininfo.json" := by
  have waits : assertValidTimeout ⟨30, str "30.0"⟩ (str "rest timeout") = .ok () :=
    if_pos (by constructor <;> simp only [maxTimeout] <;> norm_num)
  have checked : checkedUrl ascii .rest (str "http://localhost:8332/node/") =
      .ok (str "http://localhost:8332/node/") := by decide +kernel
  have built : RestClient.new ascii (str "http://localhost:8332/node/") ⟨30, str "30.0"⟩ .urlopen =
      .ok ⟨str "http://localhost:8332/node/", ⟨30, str "30.0"⟩, .urlopen⟩ := by
    rw [RestClient.new, checked]
    simp only [waits]
  obtain ⟨parts, split, request, asked, target⟩ := restClient_target_iff built
    (⟨⟨_, rfl⟩, by decide, by decide⟩ : Resource (str "/chaininfo.json"))
    { promptly moved with urllib := ascii.urllib } rfl none (by rintro _ ⟨⟩) 100 Session.new
  refine ⟨request, asked, (target.mpr (by decide)).trans ?_⟩
  have found : ascii.urlsplit (str "http://localhost:8332/node/") =
      some ⟨str "http", str "localhost:8332", str "/node/", [], []⟩ := by decide +kernel
  cases split.symm.trans found
  decide +kernel

/-- A base url with an empty query is accepted, its path is `/`, and a resource's path is put into the
query; with an empty fragment it is lost. -/
theorem restClient_target_query :
    checkedUrl ascii .rest (str "http://localhost:8332/?") = .ok (str "http://localhost:8332/?") ∧
    (ascii.urlsplit (str "http://localhost:8332/?")).map UrlText.Parts.path = some (str "/") ∧
    (restUrl (str "http://localhost:8332/?") (str "/chaininfo.json")).map UrlText.selector =
      .ok (str "/?/rest/chaininfo.json") ∧
    str "/?/rest/chaininfo.json" ≠
      UrlText.rstrip 0x2F (str "/") ++ str "/rest" ++ str "/chaininfo.json" ∧
    checkedUrl ascii .rest (str "http://localhost:8332/#") = .ok (str "http://localhost:8332/#") ∧
    (restUrl (str "http://localhost:8332/#") (str "/chaininfo.json")).map UrlText.selector =
      .ok (str "/") := by
  refine ⟨?_, ?_, ?_, ?_, ?_, ?_⟩ <;> decide +kernel

end BitcoinCoreRpc
