/-
This file models the endpoint a client is built with: the check of its url, and the
address that the transports derive from it.

What `urlsplit` makes of a url is its documented rule. A url names the host of its
authority and the port there, its scheme's where there is none. The session keeps its
connections by the address it derives and the stream connects to the one it does, and
each reads a port of zero as no port at all. The main result says over every url the
constructors accept that this is the one way an address is not the one named, and that
every request a session writes for such a url goes over a connection opened to it.
-/

import BitcoinCoreRpc.UrlText
import BitcoinCoreRpc.BrokenBody

namespace BitcoinCoreRpc

/-! ### The check at construction -/

/-- What reading a url takes of the standard library beyond its text: the characters `str` calls
spaces and printable, the addresses `ipaddress` reads, and the digit limit of an `int`. -/
structure Urlparse where
  isspace : Nat → Bool
  isprintable : Nat → Bool
  isAddress : Str → Bool
  digitLimit : Nat
  space_ascii : ∀ code < 128, isspace code = ((9 ≤ code && code ≤ 13) || (28 ≤ code && code ≤ 32))
  printable_ascii : ∀ code < 128, isprintable code = (32 ≤ code && code < 127)

namespace Urlparse

/-- `urlsplit(url)` -/
def urlsplit (lib : Urlparse) (url : Str) : Option UrlText.Parts :=
  UrlText.urlsplit lib.isAddress url

/-- What the transports see of it. -/
def urllib (lib : Urlparse) : Urllib where
  isspace := lib.isspace
  isprintable := lib.isprintable
  urlsplit url := (lib.urlsplit url).map fun parts =>
    ⟨parts.scheme, parts.hostname, parts.port lib.digitLimit, parts.username, parts.password⟩
  selector := UrlText.selector

end Urlparse

/-- The client an endpoint is for. -/
inductive EndpointKind
  | rpc
  | rest
deriving DecidableEq

def EndpointKind.text : EndpointKind → Str
  | .rpc => str "rpc"
  | .rest => str "rest"

/-- `_checked_url` -/
def checkedUrl (lib : Urlparse) (kind : EndpointKind) (url : Str) : Except Exc Str :=
  if url.any fun code => lib.isspace code || !lib.isprintable code then
    .error (.btcRpcValueError
      (str "whitespace or a control character in the " ++ kind.text ++ str " url"))
  else if url.any (128 ≤ ·) then
    .error (.btcRpcValueError (str "non-ASCII character in the " ++ kind.text ++ str " url"))
  else
    match lib.urlsplit url with
    | none => .error (.btcRpcValueError (str "malformed " ++ kind.text ++ str " url"))
    | some split =>
      if split.scheme ≠ str "http" ∧ split.scheme ≠ str "https" then
        .error (.btcRpcValueError
          (str "invalid " ++ kind.text ++ str " url scheme: expected http(s)"))
      else if split.username.isSome ∨ split.password.isSome then
        .error (.btcRpcValueError (match kind with
          | .rpc => str "credentials in the rpc url:" ++
            str " pass user and password, or use the cookie file"
          | .rest => str "credentials in the rest url, which takes none:" ++
            str " -rest authenticates nobody who reaches it"))
      else if split.hostname = none then
        .error (.btcRpcValueError (str "no host in the " ++ kind.text ++ str " url"))
      else if split.query ≠ [] ∨ split.fragment ≠ [] then
        .error (.btcRpcValueError (str "query or fragment in the " ++ kind.text ++ str " url -- " ++
          match kind with
          | .rpc => str "an rpc endpoint is a path, and the call is the body"
          | .rest => str "a rest endpoint is a path, and nothing here reads a query"))
      else if split.port lib.digitLimit = none then
        .error (.btcRpcValueError (str "invalid port in the " ++ kind.text ++ str " url"))
      else .ok url

/-! ### Addresses -/

/-- The address a url names: its scheme, the host of its authority, and the port there, whatever
number that is, or its scheme's where there is none. -/
def namedAddress (lib : Urlparse) (url : Str) : Option Key :=
  match lib.urlsplit url with
  | none => none
  | some parts =>
    match parts.hostname, parts.port lib.digitLimit with
    | some host, some port =>
      some (parts.scheme, host, port.getD (if parts.scheme = str "https" then 443 else 80))
    | _, _ => none

/-- The key `SessionTransport.__call__` looks a connection up by and opens it to. -/
def sessionKey (lib : Urlparse) (url : Str) : Except Exc Key :=
  (splitUrl lib.urllib url).map Url.key

/-- What `_post_stream` opens a connection to and writes over it, beside `Connection: close`, and
what its messages call it. -/
structure Posted where
  address : Key
  where_ : Str
  path : Str
  data : Bytes
  headers : List (Str × Str)

/-- `_post_stream`, up to its `connection.request`. -/
def postStream (lib : Urlparse) (url : Str) (data : Bytes) (headers : List (Str × Str))
    (timeout : Timeout) : Except Exc Posted :=
  match assertValidTimeout timeout (str "http timeout") with
  | .error e => .error e
  | .ok () =>
    match assertValidHeaders headers with
    | .error e => .error e
    | .ok () =>
      match splitUrl lib.urllib url with
      | .error e => .error e
      | .ok parts =>
        let path := match lib.urlsplit url with
          | none | some ⟨_, _, [], _, _⟩ => str "/"
          | some split => split.path
        .ok ⟨parts.key, parts.where_, path, data, headers⟩

/-! ### What is accepted -/

/-- A url that a transport splits, of printable ASCII characters. -/
structure Splits (lib : Urlparse) (url : Str) (parts : UrlText.Parts) (host : Str)
    (port : Option Nat) : Prop where
  printable : ∀ code ∈ url, 0x20 < code ∧ code < 0x7F
  split : lib.urlsplit url = some parts
  scheme : parts.scheme = str "http" ∨ parts.scheme = str "https"
  username : parts.username = none
  password : parts.password = none
  host : parts.hostname = some host
  port : parts.port lib.digitLimit = some port

/-- What the constructors let through. -/
structure Accepted (lib : Urlparse) (url : Str) (parts : UrlText.Parts) (host : Str)
    (port : Option Nat) : Prop extends Splits lib url parts host port where
  query : parts.query = []
  fragment : parts.fragment = []

section Accepted

variable {lib : Urlparse} {kind : EndpointKind} {url answer : Str} {parts : UrlText.Parts} {host : Str}
  {port : Option Nat}

/-- The characters both checks let through are the printable ASCII ones that are no space. -/
theorem printable_iff (lib : Urlparse) (url : Str) :
    (url.any fun code => lib.isspace code || !lib.isprintable code) = false ∧
        url.any (128 ≤ ·) = false ↔
      ∀ code ∈ url, 0x20 < code ∧ code < 0x7F := by
  simp only [List.any_eq_false]
  constructor
  · rintro ⟨shown, ascii⟩ code member
    have below : code < 128 := by simpa using ascii code member
    have visible := shown code member
    rw [lib.space_ascii code below, lib.printable_ascii code below] at visible
    simp only [Bool.or_eq_true, Bool.and_eq_true, decide_eq_true_eq, Bool.not_eq_true',
      Bool.and_eq_false_iff, decide_eq_false_iff_not] at visible
    omega
  · intro printable
    refine ⟨fun code member => ?_, fun code member => ?_⟩
    · have bounds := printable code member
      rw [lib.space_ascii code (by omega), lib.printable_ascii code (by omega)]
      simp only [Bool.or_eq_true, Bool.and_eq_true, decide_eq_true_eq, Bool.not_eq_true',
        Bool.and_eq_false_iff, decide_eq_false_iff_not]
      omega
    · have bounds := printable code member
      simp only [decide_eq_true_eq]
      omega

theorem checkedUrl_eq_ok (checked : checkedUrl lib kind url = .ok answer) :
    answer = url ∧ ∃ parts host port, Accepted lib url parts host port := by
  unfold checkedUrl at checked
  split_ifs at checked with shown ascii
  split at checked
  · cases checked
  rename_i parts split
  split_ifs at checked with scheme login hostless extra portless
  cases checked
  rw [not_or] at login extra
  obtain ⟨host, named⟩ := Option.ne_none_iff_exists'.mp hostless
  obtain ⟨port, read⟩ := Option.ne_none_iff_exists'.mp portless
  refine ⟨rfl, parts, host, port, ⟨⟨(printable_iff lib url).mp ⟨?_, ?_⟩, split, ?_, ?_, ?_, named, read⟩,
    ?_, ?_⟩⟩
  · exact Bool.eq_false_iff.mpr shown
  · exact Bool.eq_false_iff.mpr ascii
  · by_contra other
    rw [not_or] at other
    exact scheme other
  · exact Option.not_isSome_iff_eq_none.mp login.1
  · exact Option.not_isSome_iff_eq_none.mp login.2
  · exact not_not.mp extra.1
  · exact not_not.mp extra.2

theorem Splits.splitUrl (accepted : Splits lib url parts host port) :
    BitcoinCoreRpc.splitUrl lib.urllib url =
      .ok ⟨parts.scheme, host, port, shownUrl parts.scheme host port⟩ := by
  obtain ⟨shown, ascii⟩ := (printable_iff lib url).mpr accepted.printable
  have scheme : ¬ (parts.scheme ≠ str "http" ∧ parts.scheme ≠ str "https") := by
    rw [not_and_or, not_not, not_not]
    exact accepted.scheme
  have login : ¬ (parts.username.isSome = true ∨ parts.password.isSome = true) := by
    rw [accepted.username, accepted.password]
    rintro (absent | absent) <;> cases absent
  unfold BitcoinCoreRpc.splitUrl
  rw [if_neg (by rw [show (url.any fun code => lib.urllib.isspace code || !lib.urllib.isprintable code) =
    false from shown]; exact nofun), if_neg (by rw [ascii]; exact nofun)]
  simp only [Urlparse.urllib, accepted.split, Option.map_some, if_neg scheme, accepted.host,
    if_neg login, accepted.port]

theorem namedAddress_of_accepted (accepted : Accepted lib url parts host port) :
    namedAddress lib url =
      some (parts.scheme, host, port.getD (if parts.scheme = str "https" then 443 else 80)) := by
  simp only [namedAddress, accepted.split, accepted.host, accepted.port]

/-- The errors of the check are all of one class. -/
theorem checkedUrl_cases (lib : Urlparse) (kind : EndpointKind) (url : Str) :
    checkedUrl lib kind url = .ok url ∨
      ∃ message, checkedUrl lib kind url = .error (.btcRpcValueError message) := by
  unfold checkedUrl
  split_ifs
  · exact .inr ⟨_, rfl⟩
  · exact .inr ⟨_, rfl⟩
  · split
    · exact .inr ⟨_, rfl⟩
    · split_ifs
      all_goals first | exact .inl rfl | exact .inr ⟨_, rfl⟩

theorem checkedUrl_of_accepted (accepted : Accepted lib url parts host port) :
    checkedUrl lib kind url = .ok url := by
  obtain ⟨shown, ascii⟩ := (printable_iff lib url).mpr accepted.printable
  have scheme : ¬ (parts.scheme ≠ str "http" ∧ parts.scheme ≠ str "https") := by
    rw [not_and_or, not_not, not_not]
    exact accepted.scheme
  unfold checkedUrl
  rw [shown, ascii, if_neg Bool.false_ne_true, if_neg Bool.false_ne_true, accepted.split]
  simp only [if_neg scheme, accepted.username, accepted.password, accepted.host, accepted.query,
    accepted.fragment, accepted.port, Option.isSome_none, Bool.false_eq_true, or_self, if_false,
    ne_eq, not_true_eq_false, reduceCtorEq]

end Accepted

/-! ### A longer path -/

section Extended

variable {lib : Urlparse} {url name tail more : Str} {parts : UrlText.Parts} {host : Str}
  {port : Option Nat}

theorem netloc_ne_nil (splits : Splits lib url parts host port) : parts.netloc ≠ [] := by
  intro empty
  have hostless : parts.hostname = none := by
    unfold UrlText.Parts.hostname
    rw [empty]
    rfl
  exact nomatch hostless.symm.trans splits.host

theorem scheme_ne_nil (splits : Splits lib url parts host port) : parts.scheme ≠ [] := by
  rcases splits.scheme with scheme | scheme <;> rw [scheme] <;> decide

/-- What stripping the slashes off a url leaves of it. -/
theorem rstrip_spell {netloc : Str} (spelled : UrlText.Spelled name netloc tail)
    (authority : netloc ≠ []) :
    UrlText.rstrip 0x2F (UrlText.spell name netloc tail) =
      UrlText.spell name netloc (UrlText.rstrip 0x2F tail) := by
  obtain empty | ⟨front, last, same⟩ := List.eq_nil_or_concat netloc
  · exact absurd empty authority
  rw [List.concat_eq_append] at same
  subst same
  have ends : last ≠ 0x2F := by
    rintro rfl
    have inside := spelled.authority 0x2F (List.mem_append_right _ List.mem_cons_self)
    cases inside
  have together (tail : Str) : UrlText.spell name (front ++ [last]) tail =
      (name ++ 0x3A :: 0x2F :: 0x2F :: front) ++ last :: tail := by
    simp only [UrlText.spell, List.append_assoc, List.cons_append, List.nil_append]
  rw [together, together, UrlText.rstrip_append ends]

/-- What is put behind a url without its trailing slashes is put behind its tail. -/
theorem extended_eq {netloc : Str} (spelled : UrlText.Spelled name netloc tail)
    (authority : netloc ≠ []) (more : Str) :
    UrlText.rstrip 0x2F (UrlText.spell name netloc tail) ++ more =
      UrlText.spell name netloc (UrlText.rstrip 0x2F tail ++ more) := by
  rw [rstrip_spell spelled authority]
  simp only [UrlText.spell, List.append_assoc, List.cons_append]

/-- A longer url is spelled as the shorter is. -/
theorem extended_spelled {netloc : Str} (spelled : UrlText.Spelled name netloc tail)
    (slash : ∃ rest, more = 0x2F :: rest) :
    UrlText.Spelled name netloc (UrlText.rstrip 0x2F tail ++ more) where
  letter := spelled.letter
  scheme := spelled.scheme
  authority := spelled.authority
  tail := by
    obtain ⟨run, same, _⟩ := UrlText.exists_rstrip 0x2F tail
    rcases stripped : UrlText.rstrip 0x2F tail with _ | ⟨first, later⟩
    · obtain ⟨rest, rfl⟩ := slash
      exact .inr ⟨0x2F, rest, rfl, rfl⟩
    · rw [stripped] at same
      rcases spelled.tail with empty | ⟨other, rest, begins, delimiter⟩
      · cases same.symm.trans empty
      · cases same.symm.trans begins
        exact .inr ⟨_, _, rfl, delimiter⟩

/-- A longer url has the authority of the shorter, and so a transport splits it. -/
theorem extended_splits (spelled : UrlText.Spelled name parts.netloc tail)
    (splits : Splits lib (UrlText.spell name parts.netloc tail) parts host port)
    (slash : ∃ rest, more = 0x2F :: rest) (printable : ∀ code ∈ more, 0x20 < code ∧ code < 0x7F) :
    Splits lib (UrlText.spell name parts.netloc (UrlText.rstrip 0x2F tail ++ more))
      ⟨parts.scheme, parts.netloc, (UrlText.splitTail (UrlText.rstrip 0x2F tail ++ more)).1,
        (UrlText.splitTail (UrlText.rstrip 0x2F tail ++ more)).2.1,
        (UrlText.splitTail (UrlText.rstrip 0x2F tail ++ more)).2.2⟩ host port := by
  have shown : ∀ code ∈ UrlText.spell name parts.netloc (UrlText.rstrip 0x2F tail ++ more),
      0x20 < code ∧ code < 0x7F := by
    intro code member
    have base := splits.printable code
    rw [UrlText.mem_spell] at member base
    rcases member with inName | colon | slash | inNetloc | inTail
    · exact base (.inl inName)
    · exact base (.inr (.inl colon))
    · exact base (.inr (.inr (.inl slash)))
    · exact base (.inr (.inr (.inr (.inl inNetloc))))
    · rcases List.mem_append.mp inTail with stripped | appended
      · exact base (.inr (.inr (.inr (.inr (UrlText.mem_rstrip stripped)))))
      · exact printable code appended
  have split := splits.split
  rw [Urlparse.urlsplit, UrlText.urlsplit_spell spelled
    fun code member => (splits.printable code member).1] at split
  split_ifs at split with valid
  have scheme : name.map UrlText.lower = parts.scheme := by rw [← Option.some.inj split]
  refine ⟨shown, ?_, splits.scheme, splits.username, splits.password, splits.host, splits.port⟩
  rw [Urlparse.urlsplit, UrlText.urlsplit_spell (extended_spelled spelled slash)
    fun code member => (shown code member).1, if_pos valid, scheme]

/-- A path that follows an authority, without the marks, is empty or begins with a slash. -/
theorem base_slash {netloc base : Str} (spelled : UrlText.Spelled name netloc base)
    (noMark : 0x3F ∉ base) (noSign : 0x23 ∉ base) : base = [] ∨ ∃ more, base = 0x2F :: more := by
  rcases spelled.tail with empty | ⟨first, more, rfl, delimiter⟩
  · exact .inl empty
  refine .inr ⟨more, ?_⟩
  simp only [UrlText.isDelimiter, Bool.or_eq_true, beq_iff_eq] at delimiter
  rcases delimiter with (rfl | rfl) | rfl
  · rfl
  · exact absurd List.mem_cons_self noMark
  · exact absurd List.mem_cons_self noSign

/-- A url that is let through is spelled of its scheme, its authority, its path, and the marks of an
empty query and an empty fragment. -/
theorem Accepted.spelled (accepted : Accepted lib url parts host port) :
    ∃ name marks, UrlText.Spelled name parts.netloc (parts.path ++ marks) ∧
      url = UrlText.spell name parts.netloc (parts.path ++ marks) ∧
      0x3F ∉ parts.path ∧ 0x23 ∉ parts.path ∧
      (marks = [] ∨ marks = [0x3F] ∨ marks = [0x23] ∨ marks = [0x3F, 0x23]) ∧
      (0x3F ∉ url ∧ 0x23 ∉ url ↔ marks = []) := by
  have plain : ∀ code ∈ url, 0x20 < code := fun code member => (accepted.printable code member).1
  obtain ⟨name, tail, spelled, same⟩ := UrlText.exists_spell plain accepted.split
    (scheme_ne_nil accepted.toSplits) (netloc_ne_nil accepted.toSplits)
  have split := accepted.split
  rw [same] at plain split
  rw [Urlparse.urlsplit, UrlText.urlsplit_spell spelled plain] at split
  split_ifs at split
  have cut := Option.some.inj split
  have query := accepted.query
  have fragment := accepted.fragment
  rw [← cut] at query fragment
  obtain ⟨noMark, noSign, marks, together, shape⟩ := UrlText.splitTail_empty query fragment
  have basePath : parts.path = (UrlText.splitTail tail).1 := by rw [← cut]
  rw [← basePath] at noMark noSign together
  refine ⟨name, marks, together ▸ spelled, together ▸ same, noMark, noSign, shape, ?_⟩
  rw [same, UrlText.mark_mem_spell spelled (.inl rfl), UrlText.mark_mem_spell spelled (.inr rfl),
    together]
  rcases shape with rfl | rfl | rfl | rfl
  · rw [List.append_nil]
    exact iff_of_true ⟨noMark, noSign⟩ rfl
  all_goals exact iff_of_false (by simp) (List.cons_ne_nil _ _)

end Extended

/-! ### Where a request goes -/

/-- Every request written between two states of a session goes over a connection that was opened to
an address. -/
def Reaches (key : Key) (before after : Session) : Prop :=
  ∃ events, after.trace = before.trace ++ events ∧
    ∀ connection raised, Event.requested connection raised ∈ events →
      Event.opened connection key ∈ after.trace

section Reaches

variable {world : World} {key : Key} {deadline : ℚ} {where_ : Str} {before between after session : Session}
  {connection : ConnectionId} {held : Connection}

/-- What writes no request reaches any address. -/
theorem Reaches.of_silent {events : List Event} (extends_ : session.Extends after events)
    (silent : requests events = []) : Reaches key session after := by
  refine ⟨events, extends_.trace, fun connection raised written => ?_⟩
  have listed : (connection, raised) ∈ requests events :=
    List.mem_filterMap.mpr ⟨_, written, rfl⟩
  rw [silent] at listed
  cases listed

theorem Reaches.of_same (same : after.trace = before.trace) : Reaches key before after :=
  ⟨[], same.trans (List.append_nil _).symm, nofun⟩

theorem Reaches.trans (early : Reaches key before between) (late : Reaches key between after) :
    Reaches key before after := by
  obtain ⟨first, first_trace, opened⟩ := early
  obtain ⟨last, last_trace, opened'⟩ := late
  refine ⟨first ++ last, by rw [last_trace, first_trace, List.append_assoc],
    fun connection raised written => ?_⟩
  rcases List.mem_append.mp written with here | there
  · rw [last_trace]
    exact List.mem_append_left _ (opened connection raised here)
  · exact opened' connection raised there

theorem Reaches.request (opened : Event.opened connection key ∈ session.trace) :
    Reaches key session (session.request world connection).2 := by
  refine ⟨[.requested connection (world.request session.tick)], rfl, fun other raised written => ?_⟩
  cases List.mem_singleton.mp written
  exact List.mem_append_left _ opened

/-- The write goes over the connection in use, or over one it opened to the same address. -/
theorem Reaches.write (inPlay : InPlay session key connection held) (reused : Bool) :
    Reaches key session (session.write world key deadline where_ connection reused).2.2 := by
  have first := @Reaches.request world key session connection inPlay.opened
  unfold Session.write
  obtain ⟨written, run, _, stillInPlay⟩ := request_cases world inPlay
  rw [run] at first ⊢
  cases world.request session.tick with
  | none => exact first
  | some e =>
    simp only
    split_ifs
    · have closed : Reaches key session (written.closeConnection connection) := first.trans (.of_same rfl)
      rcases @connect_cases key (written.closeConnection connection) world deadline where_
          stillInPlay.drop with ⟨e', after, failed, connecting, _⟩ |
        ⟨fresh, after, heldFresh, made, connecting, freshInPlay, _⟩
      · simp only [failed]
        exact closed.trans (.of_silent connecting rfl)
      · simp only [made]
        exact (closed.trans (.of_silent connecting rfl)).trans (.request freshInPlay.opened)
    · exact first

theorem getresponse_trace (world : World) (connection : ConnectionId) (session : Session) :
    (session.getresponse world connection).2.trace = session.trace := by
  unfold Session.getresponse
  dsimp only
  split <;> rfl

theorem readBody_trace (world : World) (connection : ConnectionId) (response : Response)
    (maxBodySize : Int) (where_ : Str) (deadline : ℚ) (session : Session) :
    (session.readBody world connection response maxBodySize where_ deadline).2.trace =
      session.trace := by
  unfold Session.readBody
  dsimp only
  split
  · rfl
  · split_ifs <;> rfl

theorem popClose_trace (session : Session) (key : Key) : (session.popClose key).trace = session.trace := by
  unfold Session.popClose
  split <;> rfl

/-- An exchange writes over connections opened to the key it is for. -/
theorem Reaches.sendAndReceive (idle : session.Idle) :
    Reaches key session (session.sendAndReceive world key deadline where_).2 := by
  unfold Session.sendAndReceive
  rcases checkout_cases world deadline where_ idle with ⟨e, after, events, failed, extends_, silent, _⟩ |
    ⟨connection, reused, ready, looked, held, ran, extends_, silent, inPlay, _⟩
  · rw [failed]
    exact .of_silent extends_ silent
  rw [ran]
  have writes := @Reaches.write world key deadline where_ ready connection held inPlay reused
  have both := Reaches.trans (.of_silent extends_ silent) writes
  dsimp only
  rcases wrote : ready.write world key deadline where_ connection reused with ⟨_ | e, last, sent⟩
  · rw [wrote] at both
    have kept := getresponse_trace world last sent
    dsimp only
    rcases received : sent.getresponse world last with ⟨e | response, after⟩
    all_goals
      rw [received] at kept
      exact both.trans (.of_same kept)
  · rw [wrote] at both
    exact both.trans (.of_same rfl)

/-- A call writes over connections opened to the address it derives from its url. -/
theorem Reaches.send {parts : Url} (idle : session.Idle) (request : Request) (timeout : Timeout)
    (maxBodySize : Int) (split : splitUrl world.urllib request.fullUrl = .ok parts) :
    Reaches parts.key session (session.send world request timeout maxBodySize).2 := by
  have started : Session.Idle (Session.ticked { session with call := session.call + 1 }) := idle
  unfold Session.send
  dsimp only
  rcases assertValidTimeout timeout (str "http timeout") with e | _
  · exact .of_same rfl
  rcases assertValidMaxBodySize maxBodySize with e | _
  · exact .of_same rfl
  simp only [split, Session.monotonic]
  generalize world.clock session.tick + timeout.seconds = deadline
  have exchange := @Reaches.sendAndReceive world parts.key deadline parts.where_ _ started
  have whole : Reaches parts.key session
      (Session.sendAndReceive world parts.key deadline parts.where_
        (Session.ticked { session with call := session.call + 1 })).2 :=
    Reaches.trans (.of_same rfl) exchange
  unfold Url.key at whole
  rcases ran : Session.sendAndReceive world (parts.scheme, parts.host, Session.effectivePort parts)
    deadline parts.where_ (Session.ticked { session with call := session.call + 1 }) with
    ⟨e | ⟨response, connection⟩, received⟩
  · rw [ran] at whole
    exact whole
  rw [ran] at whole
  have kept := readBody_trace world connection response maxBodySize parts.where_ deadline received
  dsimp only
  rcases read : received.readBody world connection response maxBodySize parts.where_ deadline with
    ⟨e | ⟨body, ended⟩, after⟩
  · rw [read] at kept
    exact whole.trans (.of_same ((popClose_trace _ _).trans kept))
  · rw [read] at kept
    dsimp only
    split_ifs
    · exact whole.trans (.of_same ((popClose_trace _ _).trans kept))
    · exact whole.trans (.of_same ((popClose_trace _ _).trans kept))
    · exact whole.trans (.of_same kept)

end Reaches

/-! ### The address derived and the address named -/

/-- The port a transport takes is the one named unless the one named is zero. -/
theorem effectivePort_eq_iff (scheme host : Str) (port : Option Nat) (where_ : Str) :
    (Session.effectivePort ⟨scheme, host, port, where_⟩ =
        port.getD (if scheme = str "https" then 443 else 80)) ↔
      port.getD (if scheme = str "https" then 443 else 80) ≠ 0 := by
  have positive : (if scheme = str "https" then 443 else 80) ≠ 0 := by split_ifs <;> decide
  match port with
  | none => exact iff_of_true rfl positive
  | some 0 => exact iff_of_false positive (not_not.mpr rfl)
  | some (number + 1) => exact iff_of_true rfl (Nat.succ_ne_zero number)

section Accepted

variable {lib : Urlparse} {kind : EndpointKind} {url : Str}

/-- What the transports derive from a url the constructors accept. -/
theorem derived_of_accepted {parts : UrlText.Parts} {host : Str} {port : Option Nat}
    (accepted : Accepted lib url parts host port) :
    ∃ derived : Url, splitUrl lib.urllib url = .ok derived ∧ sessionKey lib url = .ok derived.key ∧
      (∀ data headers timeout posted,
        postStream lib url data headers timeout = .ok posted → posted.address = derived.key) ∧
      ∃ named, namedAddress lib url = some named ∧ (derived.key = named ↔ named.2.2 ≠ 0) := by
  have split := accepted.splitUrl
  refine ⟨_, split, by rw [sessionKey, split]; rfl, ?_, _, namedAddress_of_accepted accepted, ?_⟩
  · intro data headers timeout posted sent
    unfold postStream at sent
    rw [split] at sent
    split at sent
    · cases sent
    split at sent
    · cases sent
    cases sent
    rfl
  · rw [← effectivePort_eq_iff parts.scheme host port (shownUrl parts.scheme host port)]
    simp only [Url.key, Prod.mk.injEq, true_and]

/-- Over every url a constructor accepts, the address a session keys and opens its connection by and
the one `_post_stream` opens its connection to are the one the url names exactly where the port named
is not zero. For such a url every request of every run goes over a connection opened to the address
named, and two such urls share a connection exactly where they name the same address. -/
theorem checkedUrl_addressed_iff (checked : checkedUrl lib kind url = .ok url) :
    ∃ named, namedAddress lib url = some named ∧
      ((sessionKey lib url = .ok named ∧ ∀ data headers timeout posted,
          postStream lib url data headers timeout = .ok posted → posted.address = named) ↔
        named.2.2 ≠ 0) ∧
      (named.2.2 ≠ 0 → ∀ world operations request timeout maxBodySize,
        world.urllib = lib.urllib → request.fullUrl = url →
        Reaches named (Session.run world operations)
          ((Session.run world operations).send world request timeout maxBodySize).2) ∧
      ∀ other otherKind named', checkedUrl lib otherKind other = .ok other →
        namedAddress lib other = some named' → named.2.2 ≠ 0 → named'.2.2 ≠ 0 →
        (sessionKey lib url = sessionKey lib other ↔ named = named') := by
  obtain ⟨_, parts, host, port, accepted⟩ := checkedUrl_eq_ok checked
  obtain ⟨derived, split, key, posts, named, names, same⟩ := derived_of_accepted accepted
  refine ⟨named, names, ⟨fun ⟨keyed, _⟩ => ?_, fun nonzero => ?_⟩, ?_, ?_⟩
  · rw [key] at keyed
    exact same.mp (Except.ok.inj keyed)
  · rw [← same.mpr nonzero]
    exact ⟨key, posts⟩
  · intro nonzero world operations request timeout maxBodySize standard sent
    rw [← same.mpr nonzero]
    exact Reaches.send (run_idle world operations) request timeout maxBodySize
      (by rw [standard, sent, split])
  · intro other otherKind named' otherChecked otherNames nonzero otherNonzero
    obtain ⟨_, _, _, _, otherAccepted⟩ := checkedUrl_eq_ok otherChecked
    obtain ⟨derived', _, key', _, _, names', same'⟩ := derived_of_accepted otherAccepted
    cases otherNames.symm.trans names'
    rw [key, key', same.mpr nonzero, same'.mpr otherNonzero]
    exact ⟨Except.ok.inj, congrArg _⟩

end Accepted

/-- The ASCII characters, no address in brackets, and the default digit limit. -/
def ascii : Urlparse where
  isspace code := (9 ≤ code && code ≤ 13) || (28 ≤ code && code ≤ 32)
  isprintable code := 32 ≤ code && code < 127
  isAddress _ := false
  digitLimit := 4300
  space_ascii _ _ := rfl
  printable_ascii _ _ := rfl

/-- The port of a local node is the one connected to. -/
theorem checkedUrl_addressed_iff_local :
    sessionKey ascii (str "http://localhost:8332/") = .ok (str "http", str "localhost", 8332) := by
  obtain ⟨named, names, keyed, _⟩ := @checkedUrl_addressed_iff ascii .rpc
    (str "http://localhost:8332/") (by decide +kernel)
  have found : namedAddress ascii (str "http://localhost:8332/") =
      some (str "http", str "localhost", 8332) := by decide +kernel
  cases names.symm.trans found
  exact (keyed.mpr (by decide)).1

/-- A url that names port 0 is accepted, and both transports go to port 80 for it, where a url
without a port goes too. -/
theorem checkedUrl_misaddressed :
    checkedUrl ascii .rpc (str "http://localhost:0/") = .ok (str "http://localhost:0/") ∧
    namedAddress ascii (str "http://localhost:0/") = some (str "http", str "localhost", 0) ∧
    sessionKey ascii (str "http://localhost:0/") = .ok (str "http", str "localhost", 80) ∧
    (postStream ascii (str "http://localhost:0/") [] [] ⟨30, str "30.0"⟩).map Posted.address =
      .ok (str "http", str "localhost", 80) ∧
    sessionKey ascii (str "http://localhost:0/") = sessionKey ascii (str "http://localhost/") ∧
    namedAddress ascii (str "http://localhost:0/") ≠ namedAddress ascii (str "http://localhost/") := by
  refine ⟨?_, ?_, ?_, ?_, ?_, ?_⟩ <;> decide +kernel

end BitcoinCoreRpc
