/-
This file models `JsonStream`, octet by octet as the class reads it: the buffer it
refills, the incremental decoder beside it, the value it keeps, and the steps a walk
drives it with.

A step is a computation over the stream that keeps the stream it stopped in when it
refuses, so that a walk which catches a refusal goes on from there. The loops of the
class are given as many rounds as there are octets left, each of which takes one; that
they are enough is part of what is proved of the steps.
-/

import BitcoinCoreRpc.Steps
import BitcoinCoreRpc.Transport
import BitcoinCoreRpc.Reply

namespace BitcoinCoreRpc

open JsonText Steps

/-! ### The stream -/

/-- `_MAX_STREAM_NUMBER` -/
def maxStreamNumber : Nat := 1024

/-- `_MAX_STREAM_DEPTH` -/
def maxStreamDepth : Nat := 64

/-- `_MAX_STREAM_NAME` -/
def maxStreamName : Nat := 256

/-- A `JsonStream`, with what its `read` has yet to answer. -/
structure Stream where
  source : List Arrival
  buffer : Bytes
  pos : Nat
  /-- How many octets of the document came before `buffer`. -/
  offset : Nat
  ended : Bool
  /-- The incremental decoder. -/
  utf8 : Utf8.State
  /-- What is consumed while a value is kept. -/
  kept : Option Bytes
  keptLimit : Nat
  keptSoft : Bool
  /-- How many containers `members` and `items` have entered and not left. -/
  open_ : Int

/-- `JsonStream(read)` -/
def Stream.new (source : List Arrival) : Stream :=
  ⟨source, [], 0, 0, false, .start, none, 0, false, 0⟩

/-- The octets read and not consumed. -/
def Stream.here (stream : Stream) : Bytes :=
  stream.buffer.drop stream.pos

/-- The octets not consumed. -/
def Stream.unread (stream : Stream) : Bytes :=
  stream.here ++ contents stream.source

/-- How many octets were consumed. -/
def Stream.position (stream : Stream) : Nat :=
  stream.offset + stream.pos

/-- A step of a stream, which answers, or refuses and leaves the stream where it stopped. -/
abbrev StreamStep : Type → Type := Step Exc Stream

section Reading

variable (where_ : Str)

/-- `_refusal` -/
def refusal (what : Str) : Exc :=
  .fetchError (where_ ++ str ": " ++ what)

/-- `_misplaced` -/
def misplaced (expected at_ : Nat) : Exc :=
  refusal where_ (str "not '" ++ [expected] ++ str "' at octet " ++ natText at_ ++
    str " of the reply")

/-- `self._utf8.decode(chunk, final=not chunk)`, `none` for its error. -/
def feed (state : Utf8.State) (chunk : Bytes) : Option Utf8.State :=
  if chunk = [] then if state = .start then some .start else none
  else (Utf8.run false state chunk).map Prod.fst

/-- `_fill` -/
def fill : StreamStep Bool := fun stream =>
  if stream.ended then (.ok false, stream)
  else
    match read1 readChunk stream.source with
    | (.error e, rest) => (.error e, { stream with source := rest })
    | (.ok chunk, rest) =>
      match feed stream.utf8 chunk with
      -- the chunk is lost, and the decoder is as it was
      | none => (.error (refusal where_ (str "a reply that is not utf-8")),
          { stream with source := rest })
      | some utf8 =>
        if chunk = [] then (.ok false, { stream with source := rest, utf8 := utf8, ended := true })
        else
          (.ok true, { stream with
            source := rest
            utf8 := utf8
            offset := stream.offset + stream.pos
            buffer := stream.here ++ chunk
            pos := 0 })

/-- The loop of `_ensure`: a round that goes on has one octet more. -/
def ensureLoop : Nat → Nat → StreamStep Nat
  | 0, _ => do return (← read).here.length
  | fuel + 1, size => do
    if (← read).here.length < size then
      if ← fill where_ then ensureLoop fuel size else return (← read).here.length
    else return (← read).here.length

/-- `_ensure` -/
def ensure (size : Nat) : StreamStep Nat :=
  ensureLoop where_ size size

/-- `_advance`. A value kept past a hard limit is refused before the position moves. -/
def advance (size : Nat) : StreamStep Unit := fun stream =>
  match stream.kept with
  | none => (.ok (), { stream with pos := stream.pos + size })
  | some kept =>
    let kept := kept ++ stream.here.take size
    if stream.keptLimit < kept.length then
      if stream.keptSoft then (.ok (), { stream with kept := none, pos := stream.pos + size })
      else
        (.error (refusal where_ (str "a value longer than the " ++ natText stream.keptLimit ++
          str " octets asked for")), { stream with kept := some kept })
    else (.ok (), { stream with kept := some kept, pos := stream.pos + size })

/-- What a loop that ran out of rounds would raise. -/
def outOfRounds : Exc :=
  .recursionError []

/-- The white space at the position, in what was read. -/
def takeBlank : StreamStep Unit := do
  let run := (blankPrefix (← read).here).codes
  if run ≠ [] then advance where_ run.length

/-- The loop of `_at_end`: a round that goes on has read one octet more. -/
def atEndLoop : Nat → StreamStep Bool
  | 0 => fail outOfRounds
  | fuel + 1 => do
    takeBlank where_
    if (← read).here ≠ [] then return false
    else if ← fill where_ then atEndLoop fuel else return true

/-- `_at_end` -/
def atEnd : StreamStep Bool := fun stream =>
  atEndLoop where_ ((contents stream.source).length + 1) stream

/-- The octet at the position, where there is one. -/
def octetHere : StreamStep Nat := do
  return (← read).here.headD 0

/-- `_next_octet` -/
def nextOctet : StreamStep Nat := do
  if ← atEnd where_ then fail (refusal where_ (str "a reply cut short")) else octetHere

/-- `peek`, as the octet of the character. -/
def peek : StreamStep Nat :=
  nextOctet where_

/-- `_expect` -/
def expect (octet : Nat) : StreamStep Unit := do
  let found ← nextOctet where_
  if found ≠ octet then fail (misplaced where_ octet (← read).position) else advance where_ 1

/-- `_escape` -/
def escape : StreamStep Unit := do
  if (← ensure where_ 2) < 2 then fail (refusal where_ (str "a reply cut short"))
  else
    let code := ((← read).here.drop 1).headD 0
    if isEscape code then advance where_ 2
    else if code = 0x75 then
      if (← ensure where_ 6) < 6 then fail (refusal where_ (str "a reply cut short"))
      else if !(((← read).here.drop 2).take 4).all isHex then
        fail (refusal where_ (str "an invalid \\u escape in a string"))
      else advance where_ 6
    else fail (refusal where_ (str "an invalid escape in a string"))

/-- The loop of `_string`, past the opening quotation mark: a round that goes on has read an octet
more or consumed one. -/
def stringLoop : Nat → StreamStep Unit
  | 0 => fail outOfRounds
  | fuel + 1 => do
    let here := (← read).here
    let plain := here.takeWhile isPlain
    advance where_ plain.length
    match here.drop plain.length with
    | [] =>
      if ← fill where_ then stringLoop fuel
      else fail (refusal where_ (str "a reply cut short"))
    | octet :: _ =>
      if octet = 0x22 then advance where_ 1
      else if octet ≠ 0x5C then fail (refusal where_ (str "a control character in a string"))
      else do
        escape where_
        stringLoop fuel

/-- How many rounds the octets not consumed are enough for. -/
def Stream.rounds (stream : Stream) : Nat :=
  stream.unread.length + (contents stream.source).length + 1

/-- `_string` -/
def string : StreamStep Unit := do
  expect where_ 0x22
  stringLoop where_ (← read).rounds

end Reading

section Values

variable (py : Interpreter) (where_ : Str)

/-- `_assert_json_number` -/
def assertJsonNumber (number : Number) : Except Exc Unit :=
  match buildNumber py number with
  | .ok _ => .ok ()
  | .error e =>
    if e.isFetchError then .error (.fetchError (where_ ++ str ": " ++ e.message))
    else .error (unreadable where_ e)

/-- `_scalar` -/
def scalar : StreamStep Unit := do
  let _ ← ensure where_ (maxStreamNumber + 1)
  let here := (← read).here
  match matchLiteral here with
  | some (which, _) => advance where_ which.text.length
  | none =>
    match matchNumber here with
    | none => fail (refusal where_ (str "no json value where the reply has one"))
    | some (number, _) =>
      if maxStreamNumber < number.text.length then
        fail (refusal where_ (str "a number longer than " ++ natText maxStreamNumber ++
          str " octets"))
      else do
        lift (assertJsonNumber py where_ number)
        advance where_ number.text.length

/-- `_member_name` -/
def memberName : StreamStep Unit := do
  string where_
  expect where_ 0x3A

/-- What `skip` consumes of a slot ahead of its value. -/
def slotHead : Kind → StreamStep Unit
  | .array => return
  | .object => memberName where_

/-- `_next_in`: the containers left open where another value follows, `none` where none is. -/
def nextIn : List Kind → StreamStep (Option (List Kind))
  | [] => return none
  | kind :: rest => do
    let octet ← nextOctet where_
    advance where_ 1
    if octet = kind.closer then nextIn rest
    else if octet ≠ 0x2C then fail (misplaced where_ 0x2C ((← read).position - 1))
    else do
      slotHead where_ kind
      return some (kind :: rest)

/-- The branch of `skip` for a value that is no container. -/
def leaf (octet : Nat) : StreamStep Unit :=
  if octet = 0x22 then string where_ else scalar py where_

/-- The value `skip` is at: `none` where it was consumed, and what it has open where a container
was entered. -/
def skipHead (open_ : List Kind) : StreamStep (Option (List Kind)) := do
  let octet ← nextOctet where_
  match kindOf octet with
  | some kind =>
    if open_.length = maxStreamDepth then
      fail (refusal where_ (str "nesting deeper than " ++ natText maxStreamDepth))
    else do
      advance where_ 1
      let first ← nextOctet where_
      if first ≠ kind.closer then do
        slotHead where_ kind
        return some (kind :: open_)
      else do
        advance where_ 1
        return none
  | none => do
    leaf py where_ octet
    return none

/-- The loop of `skip`: a round that goes on consumed an octet. -/
def skipLoop : Nat → List Kind → StreamStep Unit
  | 0, _ => fail outOfRounds
  | fuel + 1, open_ => do
    match ← skipHead py where_ open_ with
    | some entered => skipLoop fuel entered
    | none =>
      match ← nextIn where_ open_ with
      | some entered => skipLoop fuel entered
      | none => return

/-- `skip` -/
def skip : StreamStep Unit := fun stream =>
  skipLoop py where_ stream.rounds [] stream

/-- A stream that begins to keep what is consumed. -/
def Stream.keeping (limit : Nat) (soft : Bool) (stream : Stream) : Stream :=
  { stream with kept := some [], keptLimit := limit, keptSoft := soft }

/-- What a `finally` of the class does. -/
def Stream.unkept (stream : Stream) : Stream :=
  { stream with kept := none }

/-- `_keep` -/
def keep (limit : Nat) (soft : Bool) : StreamStep Unit := do
  let _ ← nextOctet where_
  change (Stream.keeping limit soft)

/-- `json.loads(kept.decode(), parse_float=_json_number, parse_constant=_refuse_constant)` -/
def keptValue (kept : Bytes) : Except Exc Json :=
  match Utf8.decode false kept with
  | none => .error (.unicodeDecodeError [])
  | some text => loadsText py text

/-- `value`, of a limit that is an integer. -/
def value (limit : Int) : StreamStep Json :=
  if limit < 0 then
    fail (.btcRpcValueError (str "negative json value limit: " ++ intText limit))
  else do
    keep where_ limit.toNat false
    let kept ← ensuring (do
      skip py where_
      return (← read).kept.getD []) Stream.unkept
    lift (keptValue py kept)

/-- What `_name` answers of what it kept, which is the text of a string. -/
def keptName (kept : Option Bytes) : Except Exc (Option Str) :=
  match kept with
  | none => .ok none
  | some kept =>
    match keptValue py kept with
    | .ok (.string text) => .ok (some text)
    | .ok _ => .error (.typeError [])
    | .error e => .error e

/-- `_name` -/
def name : StreamStep (Option Str) := do
  keep where_ maxStreamName true
  let kept ← ensuring (do
    string where_
    return (← read).kept) Stream.unkept
  lift (keptName py kept)

/-- What an iterator yields ahead of a value: a member's name, consumed with its colon, or
nothing. -/
def slot : Kind → StreamStep (Option Str)
  | .array => return none
  | .object => do
    let found ← name py where_
    expect where_ 0x3A
    return found

/-- A stream that entered a container or left one. -/
def Stream.moved (delta : Int) (stream : Stream) : Stream :=
  { stream with open_ := stream.open_ + delta }

/-- The first resumption of an iterator over a container, `none` where the container is empty. -/
def enter (kind : Kind) : StreamStep (Option (Option Str)) := do
  expect where_ kind.opener
  if (← nextOctet where_) = kind.closer then do
    advance where_ 1
    return none
  else do
    change (Stream.moved 1)
    let found ← slot py where_ kind
    return some found

/-- Every later resumption, past a value the caller consumed. -/
def resume (kind : Kind) : StreamStep (Option (Option Str)) := do
  let octet ← nextOctet where_
  advance where_ 1
  if octet = kind.closer then do
    change (Stream.moved (-1))
    return none
  else if octet ≠ 0x2C then fail (misplaced where_ 0x2C ((← read).position - 1))
  else do
    let found ← slot py where_ kind
    return some found

/-- `end` -/
def end_ : StreamStep Unit := do
  if !(← atEnd where_) then fail (refusal where_ (str "more than one json value in the reply"))

end Values

end BitcoinCoreRpc
