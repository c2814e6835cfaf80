/-
This file models `str()` of what a call raises, and says when a text from outside reaches
it as it came.

Every message is composed of the method and the url, of literals and numbers, of what
`repr` writes, and of the parser's own errors, and the message of a node is escaped
character by character. Two texts are put in one as they are: that of the low-level error
an exchange fails with, which for a malformed status line is the line, and that of a
cookie file that cannot be opened, with its path. The main result says that the text of
what `call` and `assert_chain` raise is printable exactly where those are.
-/

import BitcoinCoreRpc.BoundedRead
import BitcoinCoreRpc.Call
import BitcoinCoreRpc.RoundTrip

namespace BitcoinCoreRpc

/-! ### The text of an exception -/

/-- `c.encode("unicode_escape").decode()`, of one character. -/
def unicodeEscape (code : Nat) : Str :=
  if code = 0x5C then [0x5C, 0x5C]
  else if code = 0x09 then [0x5C, 0x74]
  else if code = 0x0A then [0x5C, 0x6E]
  else if code = 0x0D then [0x5C, 0x72]
  else if 0x20 ≤ code ∧ code < 0x7F then [code]
  else if code < 0x100 then [0x5C, 0x78, hexDigit (code / 0x10 % 16), hexDigit (code % 16)]
  else if code < 0x10000 then escapeUnit code
  else
    [0x5C, 0x55, hexDigit (code / 0x10000000 % 16), hexDigit (code / 0x1000000 % 16),
      hexDigit (code / 0x100000 % 16), hexDigit (code / 0x10000 % 16),
      hexDigit (code / 0x1000 % 16), hexDigit (code / 0x100 % 16), hexDigit (code / 0x10 % 16),
      hexDigit (code % 16)]

/-- `str(e)`: an `RpcError` writes the characters that are not printable as escapes, and its code
after them; any other exception is its first argument. -/
def Exc.shown (lib : Urlparse) : Exc → Str
  | .rpcError message code _ =>
    (message.flatMap fun c => if lib.isprintable c then [c] else unicodeEscape c) ++
      (str " (rpc error code " ++ intText code ++ str ")")
  | e => e.message

/-- `text.isprintable()` -/
def Printable (lib : Urlparse) (text : Str) : Prop :=
  ∀ code ∈ text, lib.isprintable code = true

/-- What a raised `FetchError`, `HttpError` or `RpcError` shows is printable. -/
def Exc.Plain (lib : Urlparse) (e : Exc) : Prop :=
  e.isFetchError = true → Printable lib (e.shown lib)

/-- So is what an outcome raises, if it raises one. -/
def Shows {α : Type} (lib : Urlparse) (outcome : Except Exc α) : Prop :=
  ∀ e, outcome = .error e → e.Plain lib

/-- What Python writes of a value, and of a text it does not parse, is printable. -/
structure Renders (lib : Urlparse) (py : Interpreter) (hexError : Str → Str) : Prop where
  repr : ∀ value, Printable lib (py.repr value)
  jsonErrorText : ∀ text, Printable lib (py.jsonErrorText text)
  hexError : ∀ text, Printable lib (hexError text)

instance (text : Str) : Decidable (IsPrintable text) :=
  inferInstanceAs (Decidable (∀ code ∈ text, 0x20 ≤ code ∧ code < 0x7F))

section Texts

variable {lib : Urlparse} {α β : Type}

theorem printable_nil : Printable lib [] := by
  rintro _ ⟨⟩

@[simp]
theorem printable_append {first second : Str} :
    Printable lib (first ++ second) ↔ Printable lib first ∧ Printable lib second :=
  List.forall_mem_append

/-- A text of ASCII with no space in it is one of printable ASCII. -/
theorem isPrintable_of_solid {text : Str} (solid : ∀ code ∈ text, 0x20 < code ∧ code < 0x7F) :
    IsPrintable text :=
  fun code member => ⟨(solid code member).1.le, (solid code member).2⟩

theorem IsPrintable.printable {text : Str} (ascii : IsPrintable text) : Printable lib text := by
  intro code member
  have bounds := ascii code member
  rw [lib.printable_ascii code (by omega)]
  simpa only [Bool.and_eq_true, decide_eq_true_eq] using bounds

@[simp]
theorem printable_natText (number : Nat) : Printable lib (natText number) :=
  (isPrintable_digits (JsonText.decimalText_digits number)).printable

@[simp]
theorem printable_intText (number : Int) : Printable lib (intText number) := by
  unfold intText
  split_ifs
  · have minus : IsPrintable [0x2D] := by decide
    exact printable_append.mpr ⟨minus.printable, printable_natText _⟩
  · exact printable_natText _

/-- A literal of the source is ASCII. -/
theorem printable_str {literal : String} (ascii : IsPrintable (str literal)) :
    Printable lib (str literal) :=
  ascii.printable

theorem printable_unicodeEscape (code : Nat) : Printable lib (unicodeEscape code) := by
  have digit (value : Nat) := hexDigit_ascii (Nat.mod_lt value (by decide : 0 < 16))
  have ascii : IsPrintable (unicodeEscape code) := by
    unfold unicodeEscape
    split_ifs with _ _ _ _ plain
    any_goals decide
    · simpa only [IsPrintable, List.mem_singleton, forall_eq] using plain
    · simp only [IsPrintable, List.mem_cons, List.not_mem_nil, or_false, forall_eq_or_imp, forall_eq]
      exact ⟨by decide, by decide, digit _, digit _⟩
    · exact isPrintable_escapeUnit code
    · simp only [IsPrintable, List.mem_cons, List.not_mem_nil, or_false, forall_eq_or_imp, forall_eq]
      exact ⟨by decide, by decide, digit _, digit _, digit _, digit _, digit _, digit _, digit _,
        digit _⟩
  exact ascii.printable

/-- Whatever a node's message holds, what its error shows is printable. -/
theorem plain_rpcError (message : Str) (code : Int) (data : Json) :
    (Exc.rpcError message code data).Plain lib := by
  intro _
  have closing : Printable lib (str " (rpc error code " ++ intText code ++ str ")") := by
    simp (disch := decide) [printable_str]
  refine printable_append.mpr ⟨fun shown member => ?_, closing⟩
  obtain ⟨c, _, written⟩ := List.mem_flatMap.mp member
  split_ifs at written with plain
  · rwa [List.mem_singleton.mp written]
  · exact printable_unicodeEscape c shown written

theorem plain_fetchError {message : Str} :
    (Exc.fetchError message).Plain lib ↔ Printable lib message :=
  ⟨fun plain => plain rfl, fun printable _ => printable⟩

theorem plain_httpError {message : Str} {status : Nat} (printable : Printable lib message) :
    (Exc.httpError message status).Plain lib :=
  fun _ => printable

/-- An exception with a printable first argument shows nothing else. -/
theorem plain_of_message {e : Exc} (printable : Printable lib e.message) : e.Plain lib := by
  cases e with
  | rpcError message code data => exact plain_rpcError message code data
  | _ => exact fun _ => printable

theorem plain_own {e : Exc} (own : e.isFetchError = false) : e.Plain lib := by
  intro fetch
  rw [own] at fetch
  cases fetch

theorem shows_error {e : Exc} : Shows lib (.error e : Except Exc α) ↔ e.Plain lib := by
  constructor
  · exact fun shows => shows e rfl
  · rintro plain _ ⟨⟩
    exact plain

theorem shows_ok (value : α) : Shows lib (.ok value) := by
  rintro _ ⟨⟩

theorem shows_ite {condition : Prop} [Decidable condition] {first second : Except Exc α}
    (yes : condition → Shows lib first) (no : ¬ condition → Shows lib second) :
    Shows lib (if condition then first else second) := by
  split_ifs with holds
  · exact yes holds
  · exact no holds

theorem shows_bind {outcome : Except Exc α} {next : α → Except Exc β} (first : Shows lib outcome)
    (second : ∀ value, outcome = .ok value → Shows lib (next value)) : Shows lib (outcome >>= next) := by
  intro e raised
  rcases bind_eq_error raised with failed | ⟨value, answered, later⟩
  · exact first e failed
  · exact second value answered e later

end Texts

/-! ### The readers -/

section Readers

variable {lib : Urlparse} {py : Interpreter} {hexError : Str → Str} {where_ : Str}

/-- The parser's errors quote nothing of the reply. -/
theorem loads_message (renders : Renders lib py hexError) {payload : Bytes} {e : Exc}
    (raised : loads py payload = .error e) : Printable lib e.message := by
  refine @loads_eq_error py (fun e => Printable lib e.message) payload e printable_nil
    renders.jsonErrorText (by exact printable_str (by decide)) (fun text name read => ?_)
    (fun number e built => ?_) raised
  · refine printable_append.mpr ⟨printable_str (by decide), ?_⟩
    unfold matchConstant at read
    split at read <;> cases read <;> exact printable_str (by decide)
  · unfold buildNumber at built
    split_ifs at built
    · have limited := map_eq_error built
      simp only [intOf] at limited
      split_ifs at limited
      cases limited
      simp (disch := decide) [Exc.message, printable_str]
    · rcases bind_eq_error (map_eq_error built) with refused | ⟨value, _, later⟩
      · unfold decimalOf at refused
        split_ifs at refused
        cases refused
        exact printable_str (by decide)
      · split_ifs at later
        all_goals
          cases later
          simp (disch := decide) [Exc.message, printable_str]

theorem shows_httpError {α : Type} (plain : Printable lib where_) (status : Nat) :
    Shows lib (.error (httpError where_ status) : Except Exc α) := by
  rw [shows_error]
  unfold httpError
  split_ifs
  all_goals
    refine plain_httpError ?_
    simp (disch := decide) [plain, printable_str]

theorem plain_rpcErrorOf (renders : Renders lib py hexError) (plain : Printable lib where_)
    (error : Json) : (rpcError py where_ error).Plain lib := by
  have unreadable : (Exc.fetchError (where_ ++ str ": unreadable rpc error " ++ py.repr error)).Plain
      lib := by
    rw [plain_fetchError]
    simp (disch := decide) [plain, renders.repr, printable_str]
  unfold rpcError
  dsimp only
  split
  · split
    · exact plain_rpcError _ _ _
    · exact unreadable
  · exact unreadable

theorem shows_idError {α : Type} (renders : Renders lib py hexError) (plain : Printable lib where_)
    (requestId : Str) (reply : Dict) :
    Shows lib (.error (idError py where_ requestId reply) : Except Exc α) := by
  rw [shows_error, idError, plain_fetchError]
  simp (disch := decide) [plain, renders.repr, printable_str]

/-- A refusal that names where, and says what it found in words. -/
theorem shows_said {α : Type} (plain : Printable lib where_) {message : Str}
    (said : Printable lib message) :
    Shows lib (.error (.fetchError (where_ ++ message)) : Except Exc α) := by
  rw [shows_error, plain_fetchError]
  exact printable_append.mpr ⟨plain, said⟩

theorem shows_parsedJsonBody (renders : Renders lib py hexError) (plain : Printable lib where_)
    (status : Nat) (payload : Bytes) :
    Shows lib (parsedJsonBody (loads py) where_ status payload) := by
  unfold parsedJsonBody
  cases parsed : loads py payload with
  | ok value => exact shows_ok value
  | error e =>
    have message := loads_message renders parsed
    refine shows_ite (fun _ => shows_ite (fun _ => ?_) fun _ => shows_httpError plain status)
      fun _ => shows_ite (fun _ => ?_) fun _ => ?_
    · exact shows_error.mpr (plain_of_message message)
    · split
      · refine shows_ite (fun _ => shows_httpError plain status) fun _ => shows_said plain ?_
        exact printable_str (by decide)
      · refine shows_ite (fun _ => shows_httpError plain status) fun _ => ?_
        rw [List.append_assoc, List.append_assoc]
        refine shows_said plain ?_
        simp (disch := decide) [printable_str]
        exact message
      · refine shows_ite (fun _ => shows_httpError plain status) fun _ => ?_
        rw [shows_error]
        unfold unreadable
        split_ifs
        all_goals
          rw [plain_fetchError]
          simp (disch := decide) [plain, message, printable_str]
    · exact shows_error.mpr (plain_of_message message)

theorem printable_typeName (value : Json) : Printable lib value.typeName := by
  cases value <;> exact printable_str (by decide)

theorem shows_replyObject (renders : Renders lib py hexError) (plain : Printable lib where_)
    (status : Nat) (payload : Bytes) :
    Shows lib (replyObject (loads py) where_ status payload) := by
  refine shows_bind (shows_parsedJsonBody renders plain status payload) fun reply _ => ?_
  split
  · exact shows_ok _
  · refine shows_ite (fun _ => shows_httpError plain status) fun _ => ?_
    rw [List.append_assoc]
    refine shows_said plain (printable_append.mpr ⟨printable_str (by decide), ?_⟩)
    exact printable_typeName reply

theorem shows_getItem (members : Dict) (name : Str) : Shows lib (Dict.getItem members name) := by
  unfold Dict.getItem
  split
  · exact shows_ok _
  · exact shows_error.mpr (plain_own rfl)

theorem shows_legacyResult (renders : Renders lib py hexError) (plain : Printable lib where_)
    (requestId : Str) (status : Nat) (reply : Dict) :
    Shows lib (legacyResult py where_ requestId status reply) := by
  have error := plain_rpcErrorOf renders plain (Dict.get reply (str "error"))
  refine shows_ite (fun _ => ?_) fun _ => shows_ite (fun _ => shows_httpError plain status) fun _ =>
    shows_ite (fun _ => shows_idError renders plain requestId reply) fun _ =>
      shows_ite (fun _ => ?_) fun _ => shows_getItem reply _
  · split
    · exact shows_error.mpr (plain_rpcError _ _ _)
    · exact shows_ite (fun _ => shows_error.mpr error) fun _ => shows_httpError plain status
  · exact shows_said plain (printable_str (by decide))

theorem shows_v2Result (renders : Renders lib py hexError) (plain : Printable lib where_)
    (requestId : Str) (status : Nat) (reply : Dict) :
    Shows lib (v2Result py where_ requestId status reply) := by
  refine shows_ite (fun _ => shows_httpError plain status) fun _ =>
    shows_ite (fun _ => shows_idError renders plain requestId reply) fun _ =>
      shows_ite (fun _ => ?_) fun _ => shows_ite (fun _ => ?_) fun _ => shows_getItem reply _
  · rw [List.append_assoc]
    refine shows_said plain (printable_append.mpr ⟨printable_str (by decide), ?_⟩)
    split_ifs <;> exact printable_str (by decide)
  · exact shows_bind (shows_getItem reply _) fun error _ =>
      shows_error.mpr (plain_rpcErrorOf renders plain error)

theorem shows_discriminate (renders : Renders lib py hexError) (plain : Printable lib where_)
    (requestId : Str) (status : Nat) (reply : Dict) :
    Shows lib (discriminate py where_ requestId status reply) := by
  refine shows_ite (fun _ => shows_legacyResult renders plain requestId status reply) fun _ =>
    shows_bind (shows_getItem reply _) fun marker _ => shows_ite (fun _ =>
      shows_ite (fun _ => shows_httpError plain status) fun _ => ?_) fun _ =>
        shows_v2Result renders plain requestId status reply
  rw [shows_error, plain_fetchError]
  simp (disch := decide) [plain, renders.repr, printable_str]

/-- A reading of a reply shows nothing of it as it came. -/
theorem shows_result (renders : Renders lib py hexError) {method url : Str}
    (named : Printable lib method) (addressed : Printable lib url) (requestId : Str) (status : Nat)
    (payload : Bytes) : Shows lib (result py (loads py) method url requestId status payload) := by
  have plain : Printable lib (method ++ str " at " ++ url) := by
    simp (disch := decide) [named, addressed, printable_str]
  exact shows_bind (shows_replyObject renders plain status payload) fun reply _ =>
    shows_discriminate renders plain requestId status reply

/-- What a challenge raises is no `FetchError`, and quotes the parser of hex alone. -/
theorem magicFromSignetChallenge_message (renders : Renders lib py hexError) {challenge : Challenge}
    {e : Exc} (raised : magicFromSignetChallenge hexError challenge = .error e) :
    e.isFetchError = false ∧ Printable lib e.message := by
  have scripted {script : Bytes} (failed : scriptMagic script = .error e) :
      e.isFetchError = false ∧ Printable lib e.message := by
    have sized := map_eq_error (map_eq_error failed)
    have wide {width number : Nat} (failed : toBytes width number = .error e) :
        e.isFetchError = false ∧ Printable lib e.message := by
      unfold toBytes at failed
      split_ifs at failed
      cases failed
      exact ⟨rfl, printable_str (by decide)⟩
    unfold compactSize at sized
    split_ifs at sized
    all_goals exact wide (map_eq_error sized)
  unfold magicFromSignetChallenge at raised
  split at raised
  · split at raised
    · exact scripted raised
    · cases raised
      exact ⟨rfl, printable_append.mpr ⟨printable_str (by decide), renders.hexError _⟩⟩
  · exact scripted raised

theorem expectedMagic_own (renders : Renders lib py hexError) {chain : Str}
    {signetChallenge : Option Challenge} {e : Exc}
    (raised : expectedMagic hexError chain signetChallenge = .error e) : e.isFetchError = false := by
  unfold expectedMagic at raised
  split at raised
  · split_ifs at raised
    have unknown := map_eq_error raised
    unfold magicFromChain at unknown
    split at unknown <;> cases unknown
    rfl
  · split_ifs at raised
    · cases raised
      rfl
    · exact (magicFromSignetChallenge_message renders (map_eq_error raised)).1

/-- So does the comparison of a chain. -/
theorem shows_assertChainInfo (renders : Renders lib py hexError) (plain : Printable lib where_)
    (url : Str) (result : Json) (chain : Str) (expected : Option Bytes) :
    Shows lib (assertChainInfo py hexError where_ url result chain expected) := by
  unfold assertChainInfo
  split
  · refine shows_ite (fun _ => shows_error.mpr (plain_own rfl)) fun _ => ?_
    split
    · exact shows_ok _
    · split
      · rename_i challenge _
        have raises := fun e => @magicFromSignetChallenge_message lib py hexError renders
          (.hex challenge) e
        -- the hash is not to be run
        generalize magicFromSignetChallenge hexError (.hex challenge) = derived at raises ⊢
        cases derived with
        | error e =>
          obtain ⟨own, message⟩ := raises e rfl
          refine shows_ite (fun _ => ?_) fun _ => shows_error.mpr (plain_own own)
          rw [List.append_assoc]
          exact shows_said plain (printable_append.mpr ⟨printable_str (by decide), message⟩)
        | ok magic =>
          exact shows_ite (fun _ => shows_error.mpr (plain_own rfl)) fun _ => shows_ok _
      · rw [List.append_assoc]
        refine shows_said plain ?_
        simp (disch := decide) [printable_str]
  · simp only [List.append_assoc]
    refine shows_said plain ?_
    simp (disch := decide) [printable_str, printable_typeName]

end Readers

/-! ### The exchange -/

/-- A low-level error that `http_request` makes a `FetchError` of or lets through as one shows
nothing unprintable. -/
def Exc.Legible (lib : Urlparse) (e : Exc) : Prop :=
  (e.isOSError || e.isHTTPException || e.isFetchError) = true → Printable lib (e.shown lib)

/-- So does what a transport raises, if it raises. -/
def Sent.Legible (lib : Urlparse) : Sent → Prop
  | .raised e => e.Legible lib
  | _ => True

/-- What the network answers a request with. -/
inductive World.Responds (world : World) : Response → Prop
  | respond {call tick : Nat} {response : Response} (answered : world.respond call tick = .ok response) :
    World.Responds world response
  | leftover {unread : List Arrival} {tick : Nat} {response : Response}
    (answered : world.leftover unread tick = .ok response) : World.Responds world response
  | opener {tick : Nat} {response : Response} (answered : world.opener tick = .ok response) :
    World.Responds world response

/-- What the network, the resolver and the sockets raise. -/
inductive World.Raises (world : World) : Exc → Prop
  | probe {tick : Nat} {e : Exc} (raised : world.probe tick = .error e) : World.Raises world e
  | factory {tick : Nat} {e : Exc} (raised : world.factory tick = some e) : World.Raises world e
  | settimeout {tick : Nat} {e : Exc} (raised : world.settimeout tick = some e) : World.Raises world e
  | request {tick : Nat} {e : Exc} (raised : world.request tick = some e) : World.Raises world e
  | respond {call tick : Nat} {e : Exc} (raised : world.respond call tick = .error e) :
    World.Raises world e
  | leftover {unread : List Arrival} {tick : Nat} {e : Exc}
    (raised : world.leftover unread tick = .error e) : World.Raises world e
  | opener {tick : Nat} {e : Exc} (raised : world.opener tick = .error e) : World.Raises world e
  | arrival {response : Response} {e : Exc} (responds : World.Responds world response)
    (failed : firstFailure response.arrivals = some e) : World.Raises world e

section Exchange

variable {lib : Urlparse} {world : World} {where_ : Str} {deadline : ℚ} {session : Session}

theorem Exc.Legible.of_message {e : Exc} (printable : Printable lib e.message) : e.Legible lib := by
  intro _
  cases e with
  | rpcError message code data => exact plain_rpcError message code data rfl
  | _ => exact printable

theorem printable_shownUrl {url : Str} {parts : UrlText.Parts} {host : Str} {port : Option Nat}
    (splits : Splits lib url parts host port) :
    Printable lib (shownUrl parts.scheme host port) := by
  have plain : IsPrintable host := by
    intro code member
    obtain ⟨written, inNetloc, same⟩ := UrlText.mem_hostname splits.host member
    have bounds := splits.printable written (UrlText.mem_netloc splits.split inNetloc)
    rcases same with rfl | rfl
    · omega
    · unfold UrlText.lower
      split_ifs <;> omega
  have scheme : Printable lib parts.scheme := by
    rcases splits.scheme with same | same <;> rw [same] <;> exact printable_str (by decide)
  unfold shownUrl
  dsimp only
  split_ifs
  all_goals
    split
    all_goals
      simp (disch := decide) [scheme, plain.printable, printable_str]

/-- A loop raises the first failure that arrives, or that it is late. -/
theorem readLoop_eq_error {clock : Nat → ℚ} {fuel remaining : Nat} {buffer : Bytes}
    {reader read : Reader} {e : Exc}
    (raised : readLoop clock where_ deadline fuel remaining buffer reader = (.error e, read)) :
    e = stillArriving where_ ∨ firstFailure reader.arrivals = some e := by
  induction fuel generalizing remaining buffer reader with
  | zero => cases raised
  | succ fuel inductionHypothesis =>
    simp only [readLoop_succ] at raised
    rcases round_cases clock deadline remaining reader with none_left | ⟨some_left, late | ⟨inTime,
      ⟨failure, rest, failed, arrives⟩ | ⟨ended, _⟩ | ⟨first, more, rest, received, _, _, same⟩⟩⟩
    · rw [if_pos none_left] at raised
      cases raised
    · rw [if_neg some_left, if_pos late] at raised
      cases raised
      exact .inl rfl
    · rw [if_neg some_left, if_neg inTime, failed] at raised
      cases raised
      rw [arrives]
      exact .inr rfl
    · rw [if_neg some_left, if_neg inTime, ended] at raised
      cases raised
    · rw [if_neg some_left, if_neg inTime, received] at raised
      rw [← same]
      exact inductionHypothesis raised

/-- A bounded read raises what arrives, or names where in words. -/
theorem readBounded_legible (plain : Printable lib where_) {py : Interpreter} {clock : Nat → ℚ}
    {contentLength : Option Str} {maxBodySize : Int} {truncate : Bool} {reader read : Reader} {e : Exc}
    (arrives : ∀ e, firstFailure reader.arrivals = some e → e.Legible lib)
    (raised : readBounded py clock contentLength maxBodySize where_ deadline truncate reader =
      (.error e, read)) : e.Legible lib := by
  rw [readBounded_eq] at raised
  unfold assertValidMaxBodySize at raised
  split at raised
  · rename_i refused
    split_ifs at refused
    cases refused
    cases raised
    rintro ⟨⟩
  split at raised
  · cases raised
    refine .of_message ?_
    simp (disch := decide) [Exc.message, plain, printable_str]
  split at raised
  · rename_i looped
    cases raised
    rcases readLoop_eq_error looped with rfl | failed
    · refine .of_message ?_
      simp (disch := decide) [stillArriving, Exc.message, plain, printable_str]
    · exact arrives e failed
  · split_ifs at raised
    · cases raised
    · cases raised
      refine .of_message ?_
      simp (disch := decide) [Exc.message, plain, printable_str]
    · cases raised

/-- Nothing the network raises is unprintable. -/
def World.Legible (lib : Urlparse) (world : World) : Prop :=
  ∀ e, world.Raises e → e.Legible lib

variable {key : Key} {connection : ConnectionId} {e : Exc} {after : Session}

theorem timeLeft_legible (plain : Printable lib where_)
    (raised : session.timeLeft world deadline where_ = (.error e, after)) : e.Legible lib := by
  unfold Session.timeLeft at raised
  simp only at raised
  split_ifs at raised
  · cases raised
    refine .of_message ?_
    simp (disch := decide) [Exc.message, plain, printable_str]
  · cases raised

theorem connect_legible (legible : world.Legible lib) (plain : Printable lib where_)
    (raised : session.connect world key deadline where_ = (.error e, after)) : e.Legible lib := by
  unfold Session.connect at raised
  split at raised
  · rename_i late
    cases raised
    exact timeLeft_legible plain late
  · split at raised
    · rename_i failed
      cases raised
      exact legible e (.factory failed)
    · cases raised

theorem checkout_legible (legible : world.Legible lib) (plain : Printable lib where_)
    (raised : session.checkout world key deadline where_ = (.error e, after)) : e.Legible lib := by
  unfold Session.checkout at raised
  split at raised
  · split at raised
    · rename_i failed
      cases raised
      exact connect_legible legible plain failed
    · cases raised
  · split at raised
    · rename_i failed
      cases raised
      unfold Session.probe at failed
      split at failed
      · rename_i probed
        cases failed
        exact legible e (.probe probed)
      · cases failed
    · split at raised
      · rename_i failed
        cases raised
        exact connect_legible legible plain failed
      · cases raised
    · split at raised
      · rename_i late
        cases raised
        exact timeLeft_legible plain late
      · simp only at raised
        split at raised
        · rename_i failed
          cases raised
          exact legible e (.settimeout failed)
        · cases raised

theorem request_legible (legible : world.Legible lib)
    (raised : session.request world connection = (some e, after)) : e.Legible lib := by
  have failed : world.request session.tick = some e := congrArg Prod.fst raised
  exact legible e (.request failed)

theorem write_legible (legible : world.Legible lib) (plain : Printable lib where_) {reused : Bool}
    {left : ConnectionId}
    (raised : session.write world key deadline where_ connection reused = (some e, left, after)) :
    e.Legible lib := by
  unfold Session.write at raised
  split at raised
  · cases raised
  · rename_i failed
    split_ifs at raised
    · split at raised
      · rename_i refused
        cases raised
        exact connect_legible legible plain refused
      · rename_i fresh reconnected _
        generalize again : reconnected.request world fresh = written at raised
        obtain ⟨outcome, ended⟩ := written
        cases raised
        exact request_legible legible again
    · cases raised
      exact request_legible legible failed

/-- A response, or the lack of one, is the network's. -/
theorem getresponse_network (world : World) (connection : ConnectionId) (session : Session) :
    (session.getresponse world connection).1 = .error (.httpException []) ∨
      (∃ call tick, (session.getresponse world connection).1 = world.respond call tick) ∨
        ∃ unread tick, (session.getresponse world connection).1 = world.leftover unread tick := by
  unfold Session.getresponse
  cases session.made[connection]? with
  | none => exact .inl rfl
  | some held =>
    dsimp only
    split_ifs
    · refine .inr (.inl ⟨held.asked, session.tick, ?_⟩)
      cases world.respond held.asked session.tick <;> rfl
    · refine .inr (.inr ⟨held.unread, session.tick, ?_⟩)
      cases world.leftover held.unread session.tick <;> rfl

theorem getresponse_legible (legible : world.Legible lib)
    (raised : session.getresponse world connection = (.error e, after)) : e.Legible lib := by
  rcases getresponse_network world connection session with lost | ⟨call, tick, same⟩ |
    ⟨unread, tick, same⟩
  all_goals
    rw [raised] at *
  · cases lost
    exact .of_message printable_nil
  · exact legible e (.respond same.symm)
  · exact legible e (.leftover same.symm)

theorem getresponse_responds {response : Response}
    (answered : session.getresponse world connection = (.ok response, after)) :
    world.Responds response := by
  rcases getresponse_network world connection session with lost | ⟨call, tick, same⟩ |
    ⟨unread, tick, same⟩
  all_goals
    rw [answered] at *
  · cases lost
  · exact .respond same.symm
  · exact .leftover same.symm

theorem sendAndReceive_legible (legible : world.Legible lib) (plain : Printable lib where_)
    (raised : session.sendAndReceive world key deadline where_ = (.error e, after)) :
    e.Legible lib := by
  unfold Session.sendAndReceive at raised
  split at raised
  · rename_i failed
    cases raised
    exact checkout_legible legible plain failed
  · split at raised
    · rename_i failed
      cases raised
      exact write_legible legible plain failed
    · split at raised
      · rename_i failed
        cases raised
        exact getresponse_legible legible failed
      · cases raised

theorem sendAndReceive_responds {response : Response}
    (answered : session.sendAndReceive world key deadline where_ = (.ok (response, connection), after)) :
    world.Responds response := by
  unfold Session.sendAndReceive at answered
  split at answered
  · cases answered
  · split at answered
    · cases answered
    · split at answered
      · cases answered
      · rename_i got
        cases answered
        exact getresponse_responds got

theorem assertValidTimeout_legible {timeout : Timeout}
    {what : Str} (refused : assertValidTimeout timeout what = .error e) : e.Legible lib := by
  unfold assertValidTimeout at refused
  split_ifs at refused
  cases refused
  rintro ⟨⟩

theorem assertValidMaxBodySize_legible {maxBodySize : Int}
    (refused : assertValidMaxBodySize maxBodySize = .error e) : e.Legible lib := by
  unfold assertValidMaxBodySize at refused
  split_ifs at refused
  cases refused
  rintro ⟨⟩

/-- A `SessionTransport` raises what the network does, or names where in words. -/
theorem send_legible {request : Request} {timeout : Timeout} {maxBodySize : Int} {parts : Url}
    (legible : world.Legible lib) (split : splitUrl world.urllib request.fullUrl = .ok parts)
    (plain : Printable lib parts.where_)
    (raised : session.send world request timeout maxBodySize = (.error e, after)) : e.Legible lib := by
  unfold Session.send at raised
  simp only [split] at raised
  split at raised
  · rename_i refused
    cases raised
    exact assertValidTimeout_legible refused
  split at raised
  · rename_i refused
    cases raised
    exact assertValidMaxBodySize_legible refused
  split at raised
  · rename_i failed
    cases raised
    exact sendAndReceive_legible legible plain failed
  · rename_i response connection received answered
    split at raised
    · rename_i broken
      cases raised
      unfold Session.readBody at broken
      simp only at broken
      split at broken
      · rename_i read
        cases broken
        exact readBounded_legible plain
          (fun failure failed => legible failure (.arrival (sendAndReceive_responds answered) failed))
          (Prod.ext read rfl)
      · split_ifs at broken <;> cases broken
    · split_ifs at raised <;> cases raised

/-- So does `urlopen_transport`. -/
theorem urlopenTransport_legible {request : Request} {timeout : Timeout} {maxBodySize : Int}
    {parts : Url} (legible : world.Legible lib)
    (split : splitUrl world.urllib request.fullUrl = .ok parts) (plain : Printable lib parts.where_)
    (raised : urlopenTransport world request timeout maxBodySize session = (.raised e, after)) :
    e.Legible lib := by
  unfold urlopenTransport at raised
  simp only [split] at raised
  split at raised
  · rename_i refused
    cases raised
    exact assertValidTimeout_legible refused
  split at raised
  · rename_i refused
    cases raised
    exact assertValidMaxBodySize_legible refused
  split at raised
  · rename_i failed
    cases raised
    exact legible e (.opener failed)
  · rename_i response answered
    split_ifs at raised
    · split at raised
      · rename_i read
        cases raised
        exact readBounded_legible plain
          (fun failure failed => legible failure (.arrival (.opener answered) failed)) read
      · cases raised
    · cases raised

/-- The transports of the package raise nothing unprintable that the network did not. -/
theorem transport_legible {request : Request} {timeout : Timeout} {maxBodySize : Int} {parts : Url}
    {transport : Transport} (packaged : transport = .urlopen ∨ transport = .session)
    (legible : world.Legible lib) (split : splitUrl world.urllib request.fullUrl = .ok parts)
    (plain : Printable lib parts.where_) :
    (transport.call world request timeout maxBodySize session).1.Legible lib := by
  rcases packaged with rfl | rfl
  · simp only [Transport.call]
    rcases sent : urlopenTransport world request timeout maxBodySize session with ⟨outcome, after⟩
    cases outcome with
    | raised e => exact urlopenTransport_legible legible split plain sent
    | _ => exact trivial
  · simp only [Transport.call]
    rcases sent : session.send world request timeout maxBodySize with ⟨_ | _, after⟩
    · exact send_legible legible split plain sent
    · exact trivial

/-- What `http_request` makes of a transport's answer is printable exactly where what the transport
raises is. -/
theorem shows_readSent_iff (plain : Printable lib where_) {maxBodySize : Int} {sent : Sent} :
    Shows lib (readSent world where_ deadline maxBodySize sent session).1 ↔ sent.Legible lib := by
  cases sent with
  | httpError response =>
    refine iff_of_true ?_ trivial
    simp only [readSent]
    split
    · exact shows_ok _
    · split_ifs with swallowed
      · exact shows_ok _
      · simp only [Bool.or_eq_true, not_or, Bool.not_eq_true] at swallowed
        exact shows_error.mpr (plain_own swallowed.2)
  | raised e =>
    simp only [readSent, Sent.Legible, Exc.Legible]
    split_ifs with low
    · have shown : e.shown lib = e.message := by
        cases e with
        | rpcError message code data => cases low
        | _ => rfl
      rw [shows_error, plain_fetchError, low, Bool.true_or, shown]
      simp (disch := decide) [plain, printable_str]
    · rw [Bool.not_eq_true] at low
      rw [shows_error, low, Bool.false_or]
      exact Iff.rfl
  | answered status body =>
    refine iff_of_true ?_ trivial
    simp only [readSent]
    split_ifs
    · exact shows_ok _
    · rw [shows_error, plain_fetchError]
      simp (disch := decide) [plain, printable_str]
    · exact shows_ok _

/-- So is what `http_request` raises, where its own checks let the request through. -/
theorem shows_httpRequest_iff {url : Str} {parts : UrlText.Parts} {host : Str} {port : Option Nat}
    {headers : List (Str × Str)} {timeout : Timeout} (standard : world.urllib = lib.urllib)
    (splits : Splits lib url parts host port) (valid : assertValidHeaders headers = .ok ())
    (waits : 0 < timeout.seconds ∧ timeout.seconds ≤ maxTimeout) (data : Option Bytes)
    (maxBodySize : Int) (transport : Transport) :
    Shows lib (httpRequest world url data headers timeout maxBodySize transport session).1 ↔
      (0 ≤ maxBodySize → (transport.call world ⟨url, if data.isSome then str "POST" else str "GET",
        world.urllib.selector url, data, headers⟩ timeout maxBodySize session.ticked).1.Legible lib) := by
  have split : splitUrl world.urllib url =
      .ok ⟨parts.scheme, host, port, shownUrl parts.scheme host port⟩ := standard ▸ splits.splitUrl
  by_cases negative : maxBodySize < 0
  · refine iff_of_true ?_ fun valid => absurd valid (not_le.mpr negative)
    simp only [httpRequest, assertValidMaxBodySize, if_pos negative]
    exact shows_error.mpr (plain_own rfl)
  · simp only [httpRequest, assertValidMaxBodySize, if_neg negative, assertValidTimeout, if_pos waits,
      valid, split, Session.monotonic, not_lt.mp negative, true_implies]
    exact shows_readSent_iff (printable_shownUrl splits)

end Exchange

/-! ### The call -/

/-- A cookie file whose refusal, if it is refused, repeats nothing unprintable. -/
def CookieFile.Legible (lib : Urlparse) (cookiePath : Str) : CookieFile → Prop
  | .unencodable => True
  | .absent | .irregular => Printable lib cookiePath
  | .failed message => Printable lib cookiePath ∧ Printable lib message
  | .regular raw => Printable lib cookiePath ∨ ∃ line, cookieAuth cookiePath (.regular raw) = .ok line

/-- Nothing a call repeats as it came is unprintable: what its cookie file is refused with, and what
its transport raises. -/
def RpcClient.Legible (lib : Urlparse) (world : World) (heap : Heap) (frames : Nat)
    (client : RpcClient) (cookie : CookieFile) (requestId : Str) (method params : Ref)
    (requestTimeout : Option Timeout) (maxBodySize : Int) (session : Session) : Prop :=
  ∀ name body timeout, client.request world.py heap frames requestId method params requestTimeout =
      .ok (name, body, timeout) →
    (∀ cookiePath, client.cookiePath = some cookiePath → cookie.Legible lib cookiePath) ∧
    ∀ authorization, client.authHeader cookie = .ok authorization → 0 ≤ maxBodySize →
      (client.transport.call world (client.posted world body authorization) timeout maxBodySize
        session.ticked).1.Legible lib

section Call

variable {lib : Urlparse} {world : World} {hexError : Str → Str} {client : RpcClient} {heap : Heap}
  {frames : Nat} {cookie : CookieFile} {requestId : Str} {method params : Ref}
  {requestTimeout : Option Timeout} {maxBodySize : Int} {session : Session}

theorem shows_cookieAuth_iff (cookiePath : Str) :
    Shows lib (cookieAuth cookiePath cookie) ↔ cookie.Legible lib cookiePath := by
  cases cookie with
  | unencodable =>
    refine iff_of_true (shows_error.mpr (plain_fetchError.mpr ?_)) trivial
    simp (disch := decide) [printable_str]
  | absent | irregular | failed message =>
    rw [cookieAuth, shows_error, plain_fetchError]
    simp (disch := decide) [printable_str, CookieFile.Legible]
  | regular raw =>
    rw [CookieFile.Legible]
    simp only [cookieAuth]
    split_ifs
    · rw [shows_error, plain_fetchError]
      simp (disch := decide) [printable_str]
    · rw [shows_error, plain_fetchError]
      simp (disch := decide) [printable_str]
    · rw [shows_error, plain_fetchError]
      simp (disch := decide) [printable_str]
    · rw [shows_error, plain_fetchError]
      simp (disch := decide) [printable_str]
    · exact iff_of_true (shows_ok _) (.inr ⟨_, rfl⟩)

theorem shows_authHeader_iff :
    Shows lib (client.authHeader cookie) ↔
      ∀ cookiePath, client.cookiePath = some cookiePath → cookie.Legible lib cookiePath := by
  have encoded : Shows lib (client.authHeader cookie) ↔ Shows lib (client.credential cookie) := by
    constructor
    · intro shows e raised
      refine shows e ?_
      rw [RpcClient.authHeader, raised]
      rfl
    · intro shows
      refine shows_bind shows fun credential _ => ?_
      exact shows_ite (fun _ => shows_ok _) fun _ => shows_error.mpr (plain_own rfl)
  rw [encoded, RpcClient.credential]
  cases client.cookiePath with
  | none => exact iff_of_true (shows_ok _) (by rintro _ ⟨⟩)
  | some cookiePath => simp only [shows_cookieAuth_iff, Option.some.injEq, forall_eq']

/-- What `call` raises is printable exactly where what it repeats is. -/
theorem shows_call_iff (renders : Renders lib world.py hexError) (standard : world.urllib = lib.urllib)
    {parts : UrlText.Parts} {host : Str} {port : Option Nat}
    (splits : Splits lib client.url parts host port)
    (named : ∀ name, heap.object method = .str name → Printable lib name) :
    Shows lib (client.call world heap frames cookie requestId method params requestTimeout maxBodySize
        session).1 ↔
      client.Legible lib world heap frames cookie requestId method params requestTimeout maxBodySize
        session := by
  unfold RpcClient.Legible
  cases built : client.request world.py heap frames requestId method params requestTimeout with
  | error e =>
    refine iff_of_true ?_ (by rintro _ _ _ ⟨⟩)
    simp only [RpcClient.call, built]
    exact shows_error.mpr (plain_own (request_own built))
  | ok prepared =>
    obtain ⟨name, body, timeout⟩ := prepared
    obtain ⟨isName, waits⟩ := request_eq_ok built
    have addressed := isPrintable_of_solid splits.printable
    simp only [Except.ok.injEq, Prod.mk.injEq, and_imp]
    rw [← shows_authHeader_iff]
    cases authorized : client.authHeader cookie with
    | error e =>
      simp only [RpcClient.call, built, authorized]
      constructor
      · rintro shows _ _ _ rfl rfl rfl
        exact ⟨shows_error.mpr (shows_error.mp shows), by rintro _ ⟨⟩⟩
      · intro legible
        exact shows_error.mpr (shows_error.mp (legible _ _ _ rfl rfl rfl).1)
    | ok authorization =>
      have exchange := @shows_httpRequest_iff lib world session client.url parts host port
        (RpcClient.headers authorization) timeout standard splits (headers_valid authorized) waits
        (some body) maxBodySize client.transport
      have same : Shows lib (client.call world heap frames cookie requestId method params requestTimeout
          maxBodySize session).1 ↔ Shows lib (httpRequest world client.url (some body)
            (RpcClient.headers authorization) timeout maxBodySize client.transport session).1 := by
        simp only [RpcClient.call, built, authorized]
        rcases httpRequest world client.url (some body) (RpcClient.headers authorization) timeout
          maxBodySize client.transport session with ⟨e | ⟨status, payload⟩, after⟩
        · exact shows_error.trans shows_error.symm
        · exact iff_of_true (shows_result renders (named name isName) addressed.printable requestId
            status payload) (shows_ok _)
      rw [same, exchange]
      constructor
      · rintro legible _ _ _ rfl rfl rfl
        refine ⟨shows_ok _, ?_⟩
        rintro _ ⟨⟩
        exact legible
      · intro legible
        exact (legible _ _ _ rfl rfl rfl).2 _ rfl

/-- What a check of a chain raises is printable exactly where, with nothing wrong about what is asked,
what its request raises is. -/
theorem shows_assertChain_iff {py : Interpreter} {State : Type} {ask : State → Except Exc Json × State}
    {where_ url chain : Str} {signetChallenge : Option Challenge} {state : State}
    (renders : Renders lib py hexError) (plain : Printable lib where_) :
    Shows lib (assertChain py hexError ask where_ url chain signetChallenge state).1 ↔
      ((∃ expected, expectedMagic hexError chain signetChallenge = .ok expected) →
        Shows lib (ask state).1) := by
  unfold assertChain
  cases asked : expectedMagic hexError chain signetChallenge with
  | error e =>
    refine iff_of_true (shows_error.mpr (plain_own (expectedMagic_own renders asked))) ?_
    rintro ⟨_, ⟨⟩⟩
  | ok expected =>
    rw [forall_prop_of_true ⟨expected, rfl⟩]
    rcases ask state with ⟨e | result, later⟩
    · exact shows_error.trans shows_error.symm
    · exact iff_of_true (shows_assertChainInfo renders plain url result chain expected) (shows_ok _)

/-- What a transport of the package raises for a call is printable where what the network raises
is. -/
theorem legible_of_packaged {parts : UrlText.Parts} {host : Str} {port : Option Nat}
    (standard : world.urllib = lib.urllib) (splits : Splits lib client.url parts host port)
    (packaged : client.transport = .urlopen ∨ client.transport = .session)
    (network : world.Legible lib)
    (file : ∀ cookiePath, client.cookiePath = some cookiePath → cookie.Legible lib cookiePath) :
    client.Legible lib world heap frames cookie requestId method params requestTimeout maxBodySize
      session := by
  rintro name body timeout _
  refine ⟨file, fun authorization _ _ => ?_⟩
  exact transport_legible packaged network (standard ▸ splits.splitUrl) (printable_shownUrl splits)

/-- Nothing a check of a chain over rest repeats as it came is unprintable. -/
def RestClient.Legible (lib : Urlparse) (world : World) (client : RestClient) (session : Session) :
    Prop :=
  ∀ url, restUrl client.url (str "/chaininfo.json") = .ok url →
    (client.transport.call world ⟨url, str "GET", world.urllib.selector url, none,
      [(str "User-Agent", userAgent)]⟩ client.timeout RpcClient.defaultMaxBodySize
      session.ticked).1.Legible lib

theorem shows_getJson_iff {url : Str} {timeout : Timeout} {transport : Transport} {rest : RestClient}
    (renders : Renders lib world.py hexError) (standard : world.urllib = lib.urllib)
    (built : RestClient.new lib url timeout transport = .ok rest) :
    Shows lib (rest.getJson world (loads world.py) (str "/chaininfo.json") none
        RpcClient.defaultMaxBodySize session).1 ↔ rest.Legible lib world session := by
  obtain ⟨rfl, ⟨parts, host, port, accepted⟩, waits⟩ := RestClient.new_eq_ok built
  have resource : Resource (str "/chaininfo.json") := ⟨⟨_, rfl⟩, by decide, by decide⟩
  obtain ⟨composed, parts', joined, splits, _⟩ := restUrl_target accepted resource
  have exchange := @shows_httpRequest_iff lib world session composed parts' host port
    [(str "User-Agent", userAgent)] timeout standard splits (by decide) waits none
    RpcClient.defaultMaxBodySize transport
  have addressed := isPrintable_of_solid accepted.printable
  have plain : Printable lib (str "GET " ++ str "/chaininfo.json" ++ str " at " ++ url) := by
    simp (disch := decide) [addressed.printable, printable_str]
  simp only [RestClient.Legible, joined, Except.ok.injEq, forall_eq']
  rw [forall_prop_of_true (Int.natCast_nonneg _), Option.isSome_none, if_neg Bool.false_ne_true]
    at exchange
  rw [← exchange]
  simp only [RestClient.getJson, RestClient.get, joined, assertValidTimeout, Option.getD_none,
    if_pos waits]
  rcases httpRequest world composed none [(str "User-Agent", userAgent)] timeout
    RpcClient.defaultMaxBodySize transport session with ⟨e | ⟨status, payload⟩, after⟩
  · exact shows_error.trans shows_error.symm
  · refine iff_of_true ?_ (shows_ok _)
    simp only [Except.map]
    split_ifs
    · exact shows_httpError plain status
    · exact shows_parsedJsonBody renders plain status payload

end Call

/-- For every peer, every client and every call whose url, method and parameters are printable, what
`call` raises shows nothing but printable characters exactly where the texts it repeats as they came
hold nothing else: the error its transport raises, and what a cookie file is refused with. What either
client's `assert_chain` raises does so exactly where its request does. And the transports of the package
add nothing to what the network itself raises. -/
theorem call_printable_iff {flavour : Paths.Flavour} {lib : Urlparse} {world : World}
    {hexError : Str → Str} (renders : Renders lib world.py hexError) (standard : world.urllib = lib.urllib)
    {url : Str} {user password cookiePath : Option Str} {timeout : Timeout} {transport : Transport}
    {client : RpcClient}
    (built : RpcClient.new flavour lib url user password cookiePath timeout transport = .ok client)
    (heap : Heap) (frames : Nat) (cookie : CookieFile) (requestId : Str) (method params : Ref)
    (named : ∀ name, heap.object method = .str name → Printable lib name)
    (requestTimeout : Option Timeout) (maxBodySize : Int) (session : Session) (chain : Str)
    (signetChallenge : Option Challenge) :
    (Shows lib (client.call world heap frames cookie requestId method params requestTimeout maxBodySize
        session).1 ↔
      client.Legible lib world heap frames cookie requestId method params requestTimeout maxBodySize
        session) ∧
    (Shows lib (client.assertChain world hexError frames cookie requestId chain signetChallenge
        session).1 ↔
      ((∃ expected, expectedMagic hexError chain signetChallenge = .ok expected) →
        client.Legible lib world RpcClient.chainInfoHeap frames cookie requestId 0 1 none
          RpcClient.defaultMaxBodySize session)) ∧
    (∀ rest, RestClient.new lib url timeout transport = .ok rest →
      (Shows lib (rest.assertChain world hexError chain signetChallenge session).1 ↔
        ((∃ expected, expectedMagic hexError chain signetChallenge = .ok expected) →
          rest.Legible lib world session))) ∧
    (transport = .urlopen ∨ transport = .session → world.Legible lib →
      (∀ path, cookiePath = some path → cookie.Legible lib (flavour.written path)) →
      client.Legible lib world heap frames cookie requestId method params requestTimeout maxBodySize
        session) := by
  obtain ⟨rfl, checked, _⟩ := RpcClient.new_eq_ok built
  obtain ⟨_, parts, host, port, accepted⟩ := checkedUrl_eq_ok checked
  have addressed := isPrintable_of_solid accepted.printable
  refine ⟨shows_call_iff renders standard accepted.toSplits named, ?_, fun rest opened => ?_,
    fun packaged network file => legible_of_packaged standard accepted.toSplits packaged network ?_⟩
  · have plain : Printable lib (str "getblockchaininfo at " ++ url) := by
      simp (disch := decide) [addressed.printable, printable_str]
    refine (shows_assertChain_iff renders plain).trans (forall_congr' fun _ => ?_)
    refine shows_call_iff renders standard accepted.toSplits ?_
    rintro _ ⟨⟩
    exact printable_str (by decide)
  · obtain ⟨rfl, _⟩ := RestClient.new_eq_ok opened
    have plain : Printable lib (str "GET /chaininfo.json at " ++ url) := by
      simp (disch := decide) [addressed.printable, printable_str]
    exact (shows_assertChain_iff renders plain).trans
      (forall_congr' fun _ => shows_getJson_iff renders standard opened)
  · rintro path shown
    obtain ⟨given, here, rfl⟩ := Option.map_eq_some_iff.mp shown
    exact file given here

/-- A client of a local node, with a user and a password. -/
def localClient : RpcClient :=
  ⟨str "http://localhost:8332/", some (str "u"), some (str "p"), none, ⟨30, str "30.0"⟩, .urlopen⟩

/-- A peer whose answer http.client refuses with one text: a status line that is none, as it came. -/
def garbled (line : Str) : World :=
  { promptly moved with urllib := ascii.urllib, opener := fun _ => .error (.httpException line) }

theorem localClient_built :
    RpcClient.new Paths.posix ascii localClient.url localClient.user localClient.password
      localClient.cookiePath localClient.timeout localClient.transport = .ok localClient := by
  have checked : checkedUrl ascii .rpc localClient.url = .ok localClient.url := by decide +kernel
  have waits : assertValidTimeout localClient.timeout (str "rpc timeout") = .ok () :=
    if_pos (by constructor <;> simp only [localClient, maxTimeout] <;> norm_num)
  rw [RpcClient.new, checked]
  simp only [waits]
  rfl

/-- A status line that is too long is reported in words, and the call shows them. -/
theorem call_printable_iff_tooLong :
    Shows ascii (localClient.call (garbled (str "got more than 65536 bytes when reading status line"))
      RpcClient.chainInfoHeap 200 .absent (str "btcrpc-0") 0 1 none 100 Session.new).1 := by
  have plain : Printable ascii (str "got more than 65536 bytes when reading status line") :=
    printable_str (by decide)
  have renders : Renders ascii cpython (fun _ => str "non-hexadecimal number found in fromhex() arg") :=
    ⟨printable_typeName, fun _ => printable_nil, fun _ => printable_str (by decide)⟩
  have network : (garbled (str "got more than 65536 bytes when reading status line")).Legible ascii := by
    intro e raises
    cases raises with
    | probe raised | factory raised | settimeout raised | request raised | respond raised => cases raised
    | leftover raised =>
      cases raised
      exact .of_message printable_nil
    | opener raised =>
      cases raised
      exact .of_message plain
    | arrival responds failed =>
      cases responds with
      | respond answered =>
        cases answered
        cases failed
      | leftover answered | opener answered => cases answered
  obtain ⟨call, _, _, packaged⟩ := call_printable_iff renders
    (rfl : (garbled (str "got more than 65536 bytes when reading status line")).urllib = ascii.urllib)
    localClient_built RpcClient.chainInfoHeap 200 .absent (str "btcrpc-0") 0 1
    (by rintro _ ⟨⟩; exact printable_str (by decide)) none 100 Session.new (str "main") none
  exact call.mpr (packaged (.inl rfl) network (by rintro _ ⟨⟩))

/-- A line that is no status line is shown as it came, its escape and its line end with it. -/
theorem call_shows_statusLine :
    RpcClient.new Paths.posix ascii localClient.url localClient.user localClient.password
        localClient.cookiePath localClient.timeout localClient.transport = .ok localClient ∧
    (localClient.call (garbled (str "\x1b[2J node is up\r\n")) RpcClient.chainInfoHeap 200 .absent
        (str "btcrpc-0") 0 1 none 100 Session.new).1 =
      .error (.fetchError (str "no answer from http://localhost:8332: \x1b[2J node is up\r\n")) ∧
    ¬ Shows ascii (localClient.call (garbled (str "\x1b[2J node is up\r\n")) RpcClient.chainInfoHeap 200
        .absent (str "btcrpc-0") 0 1 none 100 Session.new).1 := by
  have raised : (localClient.call (garbled (str "\x1b[2J node is up\r\n")) RpcClient.chainInfoHeap 200
      .absent (str "btcrpc-0") 0 1 none 100 Session.new).1 =
        .error (.fetchError (str "no answer from http://localhost:8332: \x1b[2J node is up\r\n")) := by
    decide +kernel
  refine ⟨localClient_built, raised, ?_⟩
  rw [raised, shows_error, plain_fetchError]
  intro printable
  have shown := printable 0x1B (by decide)
  cases shown

end BitcoinCoreRpc
