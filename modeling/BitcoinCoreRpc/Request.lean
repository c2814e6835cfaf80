/-
This file models what a request is written from: the caller's Python objects, the
walk that refuses what json cannot carry, and the writer of a request's text.

Objects live in a heap and a container holds references, so that two containers may
share an element and a cycle can be built. The walk is bounded by the nesting it
allows and the writer by the frames the interpreter has left, and each is structural
in its bound.
-/

import BitcoinCoreRpc.Python

namespace BitcoinCoreRpc

open JsonText

/-! ### Objects -/

/-- The identity of an object. -/
abbrev Ref := Nat

/-- A Python object, as far as this package can tell one from another. A mapping that is no
`dict`, a sequence that is no `list` or `tuple`, and an iterable that is neither are each their
own kind. -/
inductive Obj
  | none
  | bool (value : Bool)
  | int (value : Int)
  | float (bits : BitVec 64)
  | str (value : Str)
  | decimal (value : Decimal)
  | bytes
  | bytearray
  | dict (members : List (Ref × Ref))
  | list (items : List Ref)
  | tuple (items : List Ref)
  | mapping (typeName : Str) (members : List (Ref × Ref))
  | sequence (typeName : Str) (items : List Ref)
  | iterable (typeName : Str) (items : List Ref)
  | other (typeName : Str)
deriving DecidableEq

/-- The objects there are, each at the reference that is its place. -/
abbrev Heap := List Obj

def Heap.object (heap : Heap) (ref : Ref) : Obj :=
  heap.getD ref (.other (str "object"))

/-- `type(value).__name__`. -/
def Obj.typeName : Obj → Str
  | .none => BitcoinCoreRpc.str "NoneType"
  | .bool _ => BitcoinCoreRpc.str "bool"
  | .int _ => BitcoinCoreRpc.str "int"
  | .float _ => BitcoinCoreRpc.str "float"
  | .str _ => BitcoinCoreRpc.str "str"
  | .decimal _ => BitcoinCoreRpc.str "Decimal"
  | .bytes => BitcoinCoreRpc.str "bytes"
  | .bytearray => BitcoinCoreRpc.str "bytearray"
  | .dict _ => BitcoinCoreRpc.str "dict"
  | .list _ => BitcoinCoreRpc.str "list"
  | .tuple _ => BitcoinCoreRpc.str "tuple"
  | .mapping typeName _ | .sequence typeName _ | .iterable typeName _ | .other typeName => typeName

/-- `isfinite` of a float, from its exponent bits. -/
def floatIsFinite (bits : BitVec 64) : Bool :=
  bits.extractLsb' 52 11 != 0x7FF#11

/-- The text of a float that is not finite. -/
def nonFiniteText (bits : BitVec 64) : Str :=
  if bits.extractLsb' 0 52 != 0#52 then str "nan"
  else if bits.msb then str "-inf" else str "inf"

/-! ### The walk -/

/-- `_MAX_PARAMS_DEPTH` -/
def maxParamsDepth : Nat := 100

/-- `_MAX_KEY_SHOWN` -/
def maxKeyShown : Nat := 16

/-- `_not_json_value` -/
def notJsonValue (kind : Str) (where_ : Option Str) : Str :=
  let message := str "rpc parameter that is not a json value: a " ++ kind
  match where_ with
  | none => message
  | some path => message ++ str " at " ++ path

/-- `_json_scalar` -/
def jsonScalar (value : Obj) (path : Str) : Except Exc Bool :=
  match value with
  | .decimal number =>
    if !number.isFinite then
      .error (.btcRpcValueError (str "not a json number in the rpc params: a Decimal"))
    else .ok true
  | .float bits =>
    if !floatIsFinite bits then
      .error (.btcRpcValueError (str "not a json number in the rpc params: " ++ nonFiniteText bits))
    else .ok true
  | .bytes | .bytearray => .error (.btcRpcTypeError (notJsonValue value.typeName (some path)))
  | .none | .bool _ | .int _ | .str _ => .ok true
  | _ => .ok false

/-- `_assert_no_cycle`; a container built for the call is one nothing refers to. -/
def assertNoCycle (ident : Option Ref) (enclosing : List Ref) : Except Exc Unit :=
  match ident with
  | none => .ok ()
  | some ref =>
    if ref ∈ enclosing then
      .error (.btcRpcValueError (str "rpc params contains itself, so it has no json"))
    else .ok ()

/-- A hexadecimal digit as Python writes one. -/
def hexDigit (digit : Nat) : Nat :=
  if digit < 10 then 0x30 + digit else 0x57 + digit

/-- `\u` and the four digits of a code unit. -/
def escapeUnit (unit : Nat) : Str :=
  [0x5C, 0x75, hexDigit (unit / 0x1000 % 16), hexDigit (unit / 0x100 % 16),
    hexDigit (unit / 0x10 % 16), hexDigit (unit % 16)]

/-- What `json.dumps` writes for one character of a string. -/
def escapeCode (code : Nat) : Str :=
  if code = 0x22 then [0x5C, 0x22]
  else if code = 0x5C then [0x5C, 0x5C]
  else if code = 0x0A then [0x5C, 0x6E]
  else if code = 0x0D then [0x5C, 0x72]
  else if code = 0x09 then [0x5C, 0x74]
  else if code = 0x0C then [0x5C, 0x66]
  else if code = 0x08 then [0x5C, 0x62]
  else if 0x20 ≤ code ∧ code ≤ 0x7E then [code]
  else if code < 0x10000 then escapeUnit code
  else
    escapeUnit (0xD800 + (code - 0x10000) / 0x400 % 0x400) ++
      escapeUnit (0xDC00 + (code - 0x10000) % 0x400)

/-- `json.dumps(text)` of a `str`. -/
def dumpsStr (text : Str) : Str :=
  0x22 :: (text.flatMap escapeCode ++ [0x22])

/-- How `_assert_json_params` shows a name in a path. -/
def shownName (name : Str) : Str :=
  if name.length ≤ maxKeyShown then dumpsStr name else str "..."

/-- `_assert_json_params`, with `left` more levels allowed below the value. -/
def assertJsonParams (heap : Heap) :
    (left : Nat) → (enclosing : List Ref) → (path : Str) → Option Ref → Obj → Except Exc Unit
  | 0, _, _, _, _ =>
    .error (.btcRpcValueError (str "rpc params nested deeper than the " ++
      natText maxParamsDepth ++ str " allowed"))
  | left + 1, enclosing, path, ident, value => do
    if ← jsonScalar value path then return ()
    match value with
    | .dict members => do
      assertNoCycle ident enclosing
      members.forM fun (name, item) =>
        match heap.object name with
        | .str text =>
          assertJsonParams heap left (ident.toList ++ enclosing)
            (path ++ str "[" ++ shownName text ++ str "]") (some item) (heap.object item)
        | key => .error (.btcRpcTypeError (str "non-string rpc parameter name of type " ++
            key.typeName ++ str " in " ++ path))
    | .list items | .tuple items => do
      assertNoCycle ident enclosing
      items.zipIdx.forM fun (item, i) =>
        assertJsonParams heap left (ident.toList ++ enclosing)
          (path ++ str "[" ++ natText i ++ str "]") (some item) (heap.object item)
    | _ => .error (.btcRpcTypeError (notJsonValue value.typeName (some path)))

/-- `_params_member`: what goes in the request as `params`, an object of the call's own. -/
def paramsMember (params : Obj) : Except Exc Obj :=
  match params with
  | .none => .ok (.list [])
  | .dict members | .mapping _ members => .ok (.dict members)
  | .str _ | .bytes | .bytearray =>
    .error (.btcRpcTypeError (str "rpc params is a " ++ params.typeName ++
      str " and not a sequence" ++
      str " of parameters: pass [params] for a single positional one"))
  | .list items | .tuple items | .sequence _ items => .ok (.list items)
  | _ => .error (.btcRpcTypeError (str "rpc params is neither a sequence nor a mapping, but a " ++
      params.typeName))

/-! ### The writer -/

/-- The integer past the digit limit, as `json.dumps` refuses one. -/
def intLimitError (py : Interpreter) : Exc :=
  .valueError (str "Exceeds the limit (" ++ natText py.maxStrDigits ++
    str " digits) for integer string conversion;" ++
    str " use sys.set_int_max_str_digits() to increase the limit")

/-- The exponent past the digit limit, as `_decimal_json` refuses one. -/
def exponentLimitError (py : Interpreter) : Exc :=
  .valueError (str "a Decimal whose exponent writes more digits than" ++
    str " sys.get_int_max_str_digits allows (" ++ natText py.maxStrDigits ++ str ")")

/-- `int.__repr__` -/
def dumpsInt (py : Interpreter) (number : Int) : Except Exc Str :=
  if py.maxStrDigits ≠ 0 ∧ py.maxStrDigits < (natText number.natAbs).length then
    .error (intLimitError py)
  else .ok (intText number)

/-- `format(number, "f")`: the digits of a decimal, positionally. -/
def formatF (negative : Bool) (coefficient : Nat) (exponent : Int) : Str :=
  (if negative then [0x2D] else []) ++
    if 0 ≤ exponent then
      if coefficient = 0 then [0x30]
      else natText coefficient ++ List.replicate exponent.toNat 0x30
    else
      let places := (-exponent).toNat
      let digits := natText coefficient
      let padded := List.replicate (places + 1 - digits.length) 0x30 ++ digits
      padded.take (padded.length - places) ++ 0x2E :: padded.drop (padded.length - places)

/-- `_decimal_json` -/
def decimalJson (py : Interpreter) (number : Decimal) : Except Exc Str :=
  match number with
  | .finite negative coefficient exponent =>
    if py.maxStrDigits ≠ 0 ∧ (py.maxStrDigits : Int) < |number.adjusted| then
      .error (exponentLimitError py)
    else .ok (formatF negative coefficient exponent)
  | _ => .error (.valueError (str "not a json number: a Decimal"))

/-- `json.dumps(value, allow_nan=False, default=_refuse_param)`, of no container. -/
def dumpsScalar (py : Interpreter) (value : Obj) : Except Exc Str :=
  match value with
  | .none => .ok (str "null")
  | .bool true => .ok (str "true")
  | .bool false => .ok (str "false")
  | .int number => dumpsInt py number
  | .float bits =>
    if floatIsFinite bits then .ok (py.floatRepr bits)
    else .error (.valueError (str "Out of range float values are not JSON compliant"))
  | .str text => .ok (dumpsStr text)
  | _ => .error (.btcRpcTypeError (notJsonValue value.typeName none))

/-- `", ".join(texts)` -/
def commaJoined : List Str → Str
  | [] => []
  | [text] => text
  | text :: rest => text ++ str ", " ++ commaJoined rest

/-- `_request_json`, with `frames` more frames on the interpreter's stack. -/
def requestJson (py : Interpreter) (heap : Heap) : (frames : Nat) → Obj → Except Exc Str
  | 0, _ => .error (.recursionError (str "maximum recursion depth exceeded"))
  | frames + 1, value =>
    match value with
    | .decimal number => decimalJson py number
    | .dict members => do
      let texts ← members.mapM fun (name, item) =>
        match heap.object name with
        | .str text => do
          let written ← requestJson py heap frames (heap.object item)
          return dumpsStr text ++ str ": " ++ written
        | key => .error (.btcRpcTypeError (str "non-string rpc parameter name of type " ++
            key.typeName))
      return str "\x7b" ++ commaJoined texts ++ str "\x7d"
    | .list items | .tuple items => do
      let texts ← items.mapM fun item => requestJson py heap frames (heap.object item)
      return str "[" ++ commaJoined texts ++ str "]"
    | value => dumpsScalar py value

end BitcoinCoreRpc
