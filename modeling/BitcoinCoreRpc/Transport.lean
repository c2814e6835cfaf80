/-
This file models the reading of a response: what a peer sends, arrival by arrival, and
the bounded read both transports take a body through.

A response is what its head announced and the arrivals that follow it. One `read1`
answers what one receive brought, or as much of it as was asked for, the rest of it
left for the next; past the last arrival it answers nothing, and an arrival may be a
failure instead. The clock is a sequence of readings, one taken at each call of
`monotonic()`.

The main result says what the bounded read answers over every arrival, limit and
clock: the body up to the limit, and the response read to its end whenever fewer
octets than the read may ask for came back.
-/

import Mathlib.Data.Rat.Defs
import Mathlib.Algebra.Order.Ring.Rat
import BitcoinCoreRpc.Python

namespace BitcoinCoreRpc

/-! ### Limits -/

/-- `_READ_CHUNK` -/
def readChunk : Nat := 64 * 1024

/-- `_CLIENT_ERROR` -/
def clientError : Nat := 400

/-- `MAX_ERROR_BODY_SIZE` -/
def maxErrorBodySize : Nat := 64 * 1024

/-- `_MAX_TIMEOUT` -/
def maxTimeout : ℚ := 2147483647 / 1000

/-- A number of seconds to wait, and how an error shows it. -/
structure Timeout where
  seconds : ℚ
  shown : Str

/-- `_assert_valid_timeout`, of a number that is no bool. -/
def assertValidTimeout (timeout : Timeout) (what : Str) : Except Exc Unit :=
  if 0 < timeout.seconds ∧ timeout.seconds ≤ maxTimeout then .ok ()
  else .error (.btcRpcValueError (what ++ str " is not a positive number of seconds" ++
    str " up to 2147483.647: " ++ timeout.shown))

/-- `_assert_valid_max_body_size`, of an integer. -/
def assertValidMaxBodySize (maxBodySize : Int) : Except Exc Unit :=
  if maxBodySize < 0 then
    .error (.btcRpcValueError (str "negative max_body_size: " ++ intText maxBodySize))
  else .ok ()

/-! ### Urls and requests -/

/-- What `urllib.parse.urlsplit` reads in a url: `port` is `none` where asking for it raises. -/
structure SplitResult where
  scheme : Str
  hostname : Option Str
  port : Option (Option Nat)
  username : Option Str
  password : Option Str

/-- The part of the standard library that reads a url. -/
structure Urllib where
  /-- `str.isspace` of one character. -/
  isspace : Nat → Bool
  /-- `str.isprintable` of one character. -/
  isprintable : Nat → Bool
  /-- `urlsplit(url)`, `none` for its `ValueError`. -/
  urlsplit : Str → Option SplitResult
  /-- The request target urllib puts on the request line for a url. -/
  selector : Str → Str

/-- What `_split_url` answers. -/
structure Url where
  scheme : Str
  host : Str
  port : Option Nat
  /-- The url's name in an error. -/
  where_ : Str

/-- `scheme://host[:port]` -/
def shownUrl (scheme host : Str) (port : Option Nat) : Str :=
  let shown := if 0x3A ∈ host then str "[" ++ host ++ str "]" else host
  scheme ++ str "://" ++ shown ++ match port with
    | none | some 0 => []
    | some number => str ":" ++ natText number

/-- `_split_url`. Where two parts are wrong the scheme, the host and the login are named before
the port. -/
def splitUrl (urllib : Urllib) (url : Str) : Except Exc Url :=
  if url.any fun code => urllib.isspace code || !urllib.isprintable code then
    .error (.btcRpcValueError (str "invalid url: whitespace or a control character"))
  else if url.any (128 ≤ ·) then
    .error (.btcRpcValueError (str "invalid url: non-ASCII character"))
  else
    match urllib.urlsplit url with
    | none => .error (.btcRpcValueError (str "invalid url: it does not parse"))
    | some parts =>
      if parts.scheme ≠ str "http" ∧ parts.scheme ≠ str "https" then
        .error (.btcRpcValueError (str "invalid url scheme: not http(s)"))
      else
        match parts.hostname with
        | none => .error (.btcRpcValueError (str "no host in url"))
        | some host =>
          if parts.username.isSome ∨ parts.password.isSome then
            .error (.btcRpcValueError (str "invalid url: it carries a login"))
          else
            match parts.port with
            | none => .error (.btcRpcValueError (str "invalid port in url"))
            | some port => .ok ⟨parts.scheme, host, port, shownUrl parts.scheme host port⟩

/-- An RFC 9110 token character. -/
def isTokenCode (code : Nat) : Bool :=
  JsonText.isDigit code || (0x41 ≤ code && code ≤ 0x5A) || (0x61 ≤ code && code ≤ 0x7A) ||
    (str "!#$%&'*+-.^_").contains code || code == 0x60 || code == 0x7C || code == 0x7E

/-- `_assert_valid_headers`, of names and values that are strings. -/
def assertValidHeaders : List (Str × Str) → Except Exc Unit
  | [] => .ok ()
  | (name, value) :: rest =>
    if name = [] ∨ !name.all isTokenCode then
      .error (.btcRpcValueError (str "invalid header name"))
    else if value.any fun code => code == 0x0D || code == 0x0A || code == 0 || 256 ≤ code then
      .error (.btcRpcValueError (str "invalid header value"))
    else assertValidHeaders rest

/-- A `urllib.request.Request`: what a transport is handed. -/
structure Request where
  fullUrl : Str
  method : Str
  selector : Str
  data : Option Bytes
  headers : List (Str × Str)

/-! ### A number in a header -/

/-- What `int` strips from a header's value, which is latin-1. -/
def isLatin1Space (code : Nat) : Bool :=
  (9 ≤ code && code ≤ 13) || (28 ≤ code && code ≤ 32) || code == 0x85 || code == 0xA0

/-- The digits of an integer literal, single underscores between them dropped. -/
def underscoredDigits : Str → Option Str
  | [] => none
  | [digit] => if JsonText.isDigit digit then some [digit] else none
  | digit :: 0x5F :: rest =>
    if JsonText.isDigit digit then (underscoredDigits rest).map (digit :: ·) else none
  | digit :: rest =>
    if JsonText.isDigit digit then (underscoredDigits rest).map (digit :: ·) else none

/-- `int(text)` of a latin-1 text, `none` for its `ValueError`. -/
def pyInt (py : Interpreter) (text : Str) : Option Int :=
  let stripped := ((text.dropWhile isLatin1Space).reverse.dropWhile isLatin1Space).reverse
  let (negative, unsigned) := match stripped with
    | 0x2D :: rest => (true, rest)
    | 0x2B :: rest => (false, rest)
    | rest => (false, rest)
  match underscoredDigits unsigned with
  | none => none
  | some digits =>
    if py.maxStrDigits ≠ 0 ∧ py.maxStrDigits < digits.length then none
    else
      let magnitude : Int := JsonText.digitsValue digits
      some (if negative then -magnitude else magnitude)

/-! ### Responses -/

/-- What one receive of a body brings: octets, at least one, or an exception. -/
inductive Arrival
  | octets (first : Nat) (more : Bytes)
  | failure (e : Exc)
deriving DecidableEq

/-- The final response a peer sends to one request. -/
structure Response where
  status : Nat
  /-- The `Content-Length` header. -/
  contentLength : Option Str
  /-- Whether the connection does not outlive this response. -/
  willClose : Bool
  arrivals : List Arrival

/-- `response.read1(size)`: one receive, and what is left to arrive after it. -/
def read1 (size : Nat) : List Arrival → Except Exc Bytes × List Arrival
  | [] => (.ok [], [])
  | .failure e :: rest => (.error e, rest)
  | .octets first more :: rest =>
    match (first :: more).drop size with
    | [] => (.ok (first :: more), rest)
    | next :: later => (.ok ((first :: more).take size), .octets next later :: rest)

/-- A response being read, and how many times the clock has been. -/
structure Reader where
  arrivals : List Arrival
  tick : Nat

/-- The octets that arrive before the end or the first failure. -/
def contents : List Arrival → Bytes
  | [] => []
  | .failure _ :: _ => []
  | .octets first more :: rest => first :: more ++ contents rest

/-- Every arrival is octets: the body is read to its end without error. -/
def Complete (arrivals : List Arrival) : Prop :=
  ∀ arrival ∈ arrivals, ∀ e, arrival ≠ .failure e

/-! ### The bounded read -/

/-- The refusal of a read reached too late. -/
def stillArriving (where_ : Str) : Exc :=
  .fetchError (where_ ++ str ": still arriving when the timeout expired")

/-- One read of the loop: the octets it asked for, and those it brought, `none` where it raised. -/
structure Receipt where
  asked : Nat
  brought : Option Bytes

/-- The loop of `_read_bounded`, beside the reads it makes. A round that goes on shortens `remaining`,
so `fuel` rounds are enough for as many octets. -/
def recordedLoop (clock : Nat → ℚ) (where_ : Str) (deadline : ℚ) :
    (fuel remaining : Nat) → Bytes → Reader → (Except Exc Bytes × Reader) × List Receipt
  | 0, _, buffer, reader => ((.ok buffer, reader), [])
  | fuel + 1, remaining, buffer, reader =>
    if remaining = 0 then ((.ok buffer, reader), [])
    else if deadline < clock reader.tick then
      ((.error (stillArriving where_), ⟨reader.arrivals, reader.tick + 1⟩), [])
    else
      match read1 (min remaining readChunk) reader.arrivals with
      | (.error e, rest) => ((.error e, ⟨rest, reader.tick + 1⟩), [⟨min remaining readChunk, none⟩])
      | (.ok [], rest) => ((.ok buffer, ⟨rest, reader.tick + 1⟩), [⟨min remaining readChunk, some []⟩])
      | (.ok chunk, rest) =>
        let (ran, reads) := recordedLoop clock where_ deadline fuel (remaining - chunk.length)
          (buffer ++ chunk) ⟨rest, reader.tick + 1⟩
        (ran, ⟨min remaining readChunk, some chunk⟩ :: reads)

/-- What the loop comes to. -/
def readLoop (clock : Nat → ℚ) (where_ : Str) (deadline : ℚ) (fuel remaining : Nat) (buffer : Bytes)
    (reader : Reader) : Except Exc Bytes × Reader :=
  (recordedLoop clock where_ deadline fuel remaining buffer reader).1

theorem readLoop_succ (clock : Nat → ℚ) (where_ : Str) (deadline : ℚ) (fuel remaining : Nat)
    (buffer : Bytes) (reader : Reader) :
    readLoop clock where_ deadline (fuel + 1) remaining buffer reader =
      if remaining = 0 then (.ok buffer, reader)
      else if deadline < clock reader.tick then
        (.error (stillArriving where_), ⟨reader.arrivals, reader.tick + 1⟩)
      else
        match read1 (min remaining readChunk) reader.arrivals with
        | (.error e, rest) => (.error e, ⟨rest, reader.tick + 1⟩)
        | (.ok [], rest) => (.ok buffer, ⟨rest, reader.tick + 1⟩)
        | (.ok chunk, rest) =>
          readLoop clock where_ deadline fuel (remaining - chunk.length) (buffer ++ chunk)
            ⟨rest, reader.tick + 1⟩ := by
  unfold readLoop
  rw [recordedLoop]
  split_ifs
  · rfl
  · rfl
  · rcases read1 (min remaining readChunk) reader.arrivals with ⟨e | chunk, rest⟩
    · rfl
    · cases chunk <;> rfl

/-- The refusal of an announced size, when one is announced, is a number and is over the
limit. -/
def announcedOver (py : Interpreter) (contentLength : Option Str) (maxBodySize : Int) : Option Int :=
  match contentLength with
  | none => none
  | some announced =>
    match pyInt py announced with
    | none => none
    | some size => if maxBodySize < size then some size else none

/-- `_read_bounded`, beside the reads it makes. -/
def recordedRead (py : Interpreter) (clock : Nat → ℚ) (contentLength : Option Str)
    (maxBodySize : Int) (where_ : Str) (deadline : ℚ) (truncate : Bool) (reader : Reader) :
    (Except Exc Bytes × Reader) × List Receipt :=
  match assertValidMaxBodySize maxBodySize with
  | .error e => ((.error e, reader), [])
  | .ok () =>
    match if truncate then none else announcedOver py contentLength maxBodySize with
    | some size =>
      ((.error (.fetchError (where_ ++ str ": announced " ++ intText size ++ str " bytes," ++
        str " more than the max_body_size of " ++ intText maxBodySize)), reader), [])
    | none =>
      match recordedLoop clock where_ deadline (maxBodySize.toNat + 1) (maxBodySize.toNat + 1) []
          reader with
      | ((.error e, read), reads) => ((.error e, read), reads)
      | ((.ok buffer, read), reads) =>
        if maxBodySize < buffer.length then
          if truncate then ((.ok (buffer.take maxBodySize.toNat), read), reads)
          else ((.error (.fetchError (where_ ++
            str ": response larger than the max_body_size of " ++ intText maxBodySize)), read), reads)
        else ((.ok buffer, read), reads)

/-- `_read_bounded` -/
def readBounded (py : Interpreter) (clock : Nat → ℚ) (contentLength : Option Str)
    (maxBodySize : Int) (where_ : Str) (deadline : ℚ) (truncate : Bool) (reader : Reader) :
    Except Exc Bytes × Reader :=
  (recordedRead py clock contentLength maxBodySize where_ deadline truncate reader).1

theorem readBounded_eq (py : Interpreter) (clock : Nat → ℚ) (contentLength : Option Str)
    (maxBodySize : Int) (where_ : Str) (deadline : ℚ) (truncate : Bool) (reader : Reader) :
    readBounded py clock contentLength maxBodySize where_ deadline truncate reader =
      match assertValidMaxBodySize maxBodySize with
      | .error e => (.error e, reader)
      | .ok () =>
        match if truncate then none else announcedOver py contentLength maxBodySize with
        | some size =>
          (.error (.fetchError (where_ ++ str ": announced " ++ intText size ++ str " bytes," ++
            str " more than the max_body_size of " ++ intText maxBodySize)), reader)
        | none =>
          match readLoop clock where_ deadline (maxBodySize.toNat + 1) (maxBodySize.toNat + 1) []
              reader with
          | (.error e, read) => (.error e, read)
          | (.ok buffer, read) =>
            if maxBodySize < buffer.length then
              if truncate then (.ok (buffer.take maxBodySize.toNat), read)
              else (.error (.fetchError (where_ ++
                str ": response larger than the max_body_size of " ++ intText maxBodySize)), read)
            else (.ok buffer, read) := by
  unfold readBounded recordedRead readLoop
  cases assertValidMaxBodySize maxBodySize with
  | error e => rfl
  | ok _ =>
    dsimp only
    cases if truncate then none else announcedOver py contentLength maxBodySize with
    | some size => rfl
    | none =>
      dsimp only
      rcases recordedLoop clock where_ deadline (maxBodySize.toNat + 1) (maxBodySize.toNat + 1) [] reader
        with ⟨⟨e | buffer, read⟩, reads⟩
      · rfl
      · dsimp only
        split_ifs <;> rfl

/-! ### What one receive does -/

/-- A receive that fails is the failure that was due. -/
theorem read1_eq_error {size : Nat} {arrivals rest : List Arrival} {e : Exc}
    (raised : read1 size arrivals = (.error e, rest)) : arrivals = .failure e :: rest := by
  match arrivals with
  | [] => cases raised
  | .failure e' :: rest' =>
    cases raised
    rfl
  | .octets first more :: rest' =>
    simp only [read1] at raised
    split at raised <;> cases raised

/-- A receive asked for an octet at least that brings none is past the last arrival. -/
theorem read1_eq_end {size : Nat} {arrivals rest : List Arrival} (positive : 0 < size)
    (ended : read1 size arrivals = (.ok [], rest)) : arrivals = [] ∧ rest = [] := by
  match arrivals with
  | [] =>
    cases ended
    exact ⟨rfl, rfl⟩
  | .failure e' :: rest' => cases ended
  | .octets first more :: rest' =>
    obtain ⟨size, rfl⟩ := Nat.exists_eq_succ_of_ne_zero (Nat.pos_iff_ne_zero.mp positive)
    simp only [read1] at ended
    split at ended <;> cases ended

/-- A receive takes no more than was asked for off the front of what is to arrive. -/
theorem read1_eq_octets {size : Nat} {arrivals rest : List Arrival} {chunk : Bytes}
    (received : read1 size arrivals = (.ok chunk, rest)) :
    contents arrivals = chunk ++ contents rest ∧ chunk.length ≤ size ∧
      (Complete arrivals → Complete rest) := by
  match arrivals with
  | [] =>
    cases received
    exact ⟨rfl, Nat.zero_le _, id⟩
  | .failure e' :: rest' => cases received
  | .octets first more :: rest' =>
    simp only [read1] at received
    split at received
    · rename_i whole
      cases received
      exact ⟨rfl, List.drop_eq_nil_iff.mp whole,
        fun complete arrival member => complete arrival (List.mem_cons_of_mem _ member)⟩
    · rename_i next later cut
      cases received
      refine ⟨?_, List.length_take_le _ _, ?_⟩
      · have halves := List.take_append_drop size (first :: more)
        rw [cut] at halves
        show first :: more ++ contents rest' = _ ++ (next :: later ++ contents rest')
        rw [← List.append_assoc, halves]
      · intro complete arrival member e failed
        rcases List.mem_cons.mp member with rfl | inRest
        · cases failed
        · exact complete arrival (List.mem_cons_of_mem _ inRest) e failed

theorem complete_not_error {size : Nat} {arrivals rest : List Arrival} {e : Exc}
    (complete : Complete arrivals) : read1 size arrivals ≠ (.error e, rest) := by
  intro raised
  rw [read1_eq_error raised] at complete
  exact complete _ List.mem_cons_self e rfl

/-! ### What the bounded read answers -/

/-- The octets a round was asked for, then those the rounds after it are. -/
theorem take_after_chunk {chunk rest : Bytes} {remaining : Nat} (fits : chunk.length ≤ remaining) :
    (chunk ++ rest).take remaining = chunk ++ rest.take (remaining - chunk.length) := by
  rw [List.take_append, List.take_of_length_le fits]

/-- A loop that answers has read the body as far as it was asked to, and to its end where that is
shorter. -/
theorem readLoop_ok {clock : Nat → ℚ} {where_ : Str} {deadline : ℚ} {fuel remaining : Nat}
    {buffer answer : Bytes} {reader read : Reader} (enough : remaining ≤ fuel)
    (answered : readLoop clock where_ deadline fuel remaining buffer reader = (.ok answer, read)) :
    answer = buffer ++ (contents reader.arrivals).take remaining ∧
      ((contents reader.arrivals).length < remaining → read.arrivals = []) := by
  induction fuel generalizing remaining buffer reader with
  | zero =>
    obtain rfl := Nat.le_zero.mp enough
    cases answered
    exact ⟨by rw [List.take_zero, List.append_nil], fun short => absurd short (Nat.not_lt_zero _)⟩
  | succ fuel inductionHypothesis =>
    simp only [readLoop_succ] at answered
    split at answered
    · rename_i none_left
      cases answered
      subst none_left
      exact ⟨by rw [List.take_zero, List.append_nil], fun short => absurd short (Nat.not_lt_zero _)⟩
    rename_i some_left
    have asked : 0 < min remaining readChunk :=
      Nat.lt_min.mpr ⟨Nat.pos_of_ne_zero some_left, by decide⟩
    split at answered
    · cases answered
    split at answered
    · cases answered
    · rename_i rest ended
      cases answered
      obtain ⟨none_arrives, rfl⟩ := read1_eq_end asked ended
      rw [none_arrives]
      exact ⟨by rw [contents, List.take_nil, List.append_nil], fun _ => rfl⟩
    · rename_i chunk rest not_empty received
      obtain ⟨front, size, _⟩ := read1_eq_octets received
      have fits : chunk.length ≤ remaining := size.trans (Nat.min_le_left _ _)
      have positive : 0 < chunk.length := List.length_pos_iff.mpr not_empty
      obtain ⟨same, emptied⟩ := inductionHypothesis (by omega) answered
      rw [front]
      refine ⟨?_, fun short => emptied ?_⟩
      · rw [same, take_after_chunk fits, List.append_assoc]
      · rw [List.length_append] at short
        exact Nat.lt_sub_of_add_lt (Nat.add_comm _ _ ▸ short)

/-- A loop over a body read to its end, every reading of the clock in time, answers. -/
theorem readLoop_complete {clock : Nat → ℚ} {where_ : Str} {deadline : ℚ} {fuel remaining : Nat}
    {buffer : Bytes} {reader : Reader} (enough : remaining ≤ fuel)
    (complete : Complete reader.arrivals) (inTime : ∀ tick, reader.tick ≤ tick → clock tick ≤ deadline) :
    ∃ answer read, readLoop clock where_ deadline fuel remaining buffer reader = (.ok answer, read) := by
  induction fuel generalizing remaining buffer reader with
  | zero => exact ⟨_, _, rfl⟩
  | succ fuel inductionHypothesis =>
    simp only [readLoop_succ]
    split
    · exact ⟨_, _, rfl⟩
    rw [if_neg (not_lt.mpr (inTime _ le_rfl))]
    split
    · rename_i raised
      exact absurd raised (complete_not_error complete)
    · exact ⟨_, _, rfl⟩
    · rename_i chunk rest not_empty received
      obtain ⟨_, _, still⟩ := read1_eq_octets received
      have positive : 0 < chunk.length := List.length_pos_iff.mpr not_empty
      exact inductionHypothesis (by omega) (still complete)
        fun tick later => inTime tick (Nat.le_of_succ_le later)

theorem readLoop_tick {clock : Nat → ℚ} {where_ : Str} {deadline : ℚ} {fuel remaining : Nat}
    {buffer : Bytes} {reader : Reader} :
    reader.tick ≤ (readLoop clock where_ deadline fuel remaining buffer reader).2.tick := by
  induction fuel generalizing remaining buffer reader with
  | zero => exact le_rfl
  | succ fuel inductionHypothesis =>
    simp only [readLoop_succ]
    split_ifs
    · exact le_rfl
    · exact Nat.le_succ _
    split
    · exact Nat.le_succ _
    · exact Nat.le_succ _
    · exact (Nat.le_succ _).trans (@inductionHypothesis _ _ ⟨_, reader.tick + 1⟩)

theorem readBounded_tick {py : Interpreter} {clock : Nat → ℚ} {contentLength : Option Str}
    {maxBodySize : Int} {where_ : Str} {deadline : ℚ} {truncate : Bool} {reader : Reader} :
    reader.tick ≤
      (readBounded py clock contentLength maxBodySize where_ deadline truncate reader).2.tick := by
  have loop := @readLoop_tick clock where_ deadline (maxBodySize.toNat + 1) (maxBodySize.toNat + 1) []
    reader
  rw [readBounded_eq]
  split
  · exact le_rfl
  split
  · exact le_rfl
  split
  · rename_i ran
    rwa [ran] at loop
  · rename_i ran
    rw [ran] at loop
    split_ifs <;> exact loop

theorem assertValidMaxBodySize_ofNat (limit : Nat) :
    assertValidMaxBodySize (limit : Int) = .ok () :=
  if_neg (by omega)

/-- A bounded read that refuses what is over its limit and answers has read the whole body. -/
theorem readBounded_ok {py : Interpreter} {clock : Nat → ℚ} {contentLength : Option Str}
    {maxBodySize : Int} {where_ : Str} {deadline : ℚ} {reader read : Reader} {answer : Bytes}
    (answered : readBounded py clock contentLength maxBodySize where_ deadline false reader =
      (.ok answer, read)) :
    answer = contents reader.arrivals ∧ read.arrivals = [] := by
  rw [readBounded_eq] at answered
  split at answered
  · cases answered
  split at answered
  · cases answered
  split at answered
  · cases answered
  rename_i loopAnswered
  split at answered
  · cases answered
  rename_i within
  cases answered
  obtain ⟨same, emptied⟩ := readLoop_ok le_rfl loopAnswered
  rw [List.nil_append] at same
  have short : (contents reader.arrivals).length < maxBodySize.toNat + 1 := by
    by_contra long
    rw [same, List.length_take_of_le (not_lt.mp long)] at within
    omega
  exact ⟨by rw [same, List.take_of_length_le short.le], emptied short⟩

/-- A bounded read that truncates and answers has the front of the body. -/
theorem readBounded_truncate_ok {py : Interpreter} {clock : Nat → ℚ} {contentLength : Option Str}
    {limit : Nat} {where_ : Str} {deadline : ℚ} {reader read : Reader} {answer : Bytes}
    (answered : readBounded py clock contentLength limit where_ deadline true reader =
      (.ok answer, read)) :
    answer = (contents reader.arrivals).take limit := by
  simp only [readBounded_eq, assertValidMaxBodySize_ofNat, if_true, Int.toNat_natCast] at answered
  split at answered
  · cases answered
  rename_i loopAnswered
  obtain ⟨same, _⟩ := readLoop_ok le_rfl loopAnswered
  rw [List.nil_append] at same
  split at answered
  · cases answered
    rw [same, List.take_take, Nat.min_eq_left (Nat.le_succ _)]
  · rename_i within
    cases answered
    rw [same] at within ⊢
    rw [List.length_take] at within
    rw [List.take_of_length_le (by omega), List.take_of_length_le (by omega)]

/-- Over a body read to its end in time, a bounded read that truncates answers its front. -/
theorem readBounded_truncate {py : Interpreter} {clock : Nat → ℚ} {contentLength : Option Str}
    {limit : Nat} {where_ : Str} {deadline : ℚ} {reader : Reader} (complete : Complete reader.arrivals)
    (inTime : ∀ tick, reader.tick ≤ tick → clock tick ≤ deadline) :
    (readBounded py clock contentLength limit where_ deadline true reader).1 =
      .ok ((contents reader.arrivals).take limit) := by
  have returned : ∃ answer read, readBounded py clock contentLength limit where_ deadline true reader =
      (.ok answer, read) := by
    obtain ⟨buffer, read, answered⟩ :=
      @readLoop_complete clock where_ deadline _ _ [] reader (le_refl (limit + 1)) complete inTime
    simp only [readBounded_eq, assertValidMaxBodySize_ofNat, if_true, Int.toNat_natCast, answered]
    split <;> exact ⟨_, _, rfl⟩
  obtain ⟨answer, read, answered⟩ := returned
  rw [answered, readBounded_truncate_ok answered]

/-- Over a body read to its end in time, a bounded read that refuses what is over its limit
answers the body exactly where neither the announcement nor the body is over it, and raises a
plain refusal elsewhere. -/
theorem readBounded_refuse {py : Interpreter} {clock : Nat → ℚ} {contentLength : Option Str}
    {limit : Nat} {where_ : Str} {deadline : ℚ} {reader : Reader} (complete : Complete reader.arrivals)
    (inTime : ∀ tick, reader.tick ≤ tick → clock tick ≤ deadline) :
    (announcedOver py contentLength limit = none ∧ (contents reader.arrivals).length ≤ limit ∧
      (readBounded py clock contentLength limit where_ deadline false reader).1 =
        .ok (contents reader.arrivals)) ∨
    (¬ (announcedOver py contentLength limit = none ∧ (contents reader.arrivals).length ≤ limit) ∧
      ∃ message, (readBounded py clock contentLength limit where_ deadline false reader).1 =
        .error (.fetchError message)) := by
  obtain ⟨buffer, read, answered⟩ :=
    @readLoop_complete clock where_ deadline _ _ [] reader (le_refl (limit + 1)) complete inTime
  obtain ⟨same, _⟩ := readLoop_ok le_rfl answered
  rw [List.nil_append] at same
  simp only [readBounded_eq, assertValidMaxBodySize_ofNat, Bool.false_eq_true, if_false,
    Int.toNat_natCast]
  cases announced : announcedOver py contentLength limit with
  | some size => exact .inr ⟨fun ⟨absent, _⟩ => (nomatch absent), _, rfl⟩
  | none =>
    simp only [answered]
    by_cases within : (contents reader.arrivals).length ≤ limit
    · left
      have whole : buffer = contents reader.arrivals := by
        rw [same, List.take_of_length_le (by omega)]
      rw [whole, if_neg (by omega)]
      exact ⟨trivial, within, rfl⟩
    · right
      rw [if_pos (by rw [same, List.length_take]; omega)]
      exact ⟨fun ⟨_, fits⟩ => within fits, _, rfl⟩

end BitcoinCoreRpc
