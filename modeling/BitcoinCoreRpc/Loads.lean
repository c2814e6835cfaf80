/-
This file models `json.loads` under the package's two hooks: the encoding it detects,
the document it decodes, and the scan of one value.

The scanner is Python's own, one value at a time with the rest of the text. Two
equations connect it to the grammar: a syntax tree's text scans to what the tree
builds, an error included, and whatever scans is the text of a tree. What a tree
builds is the meaning of its tokens, in order, with a budget of containers standing
for the recursion the interpreter allows.
-/

import BitcoinCoreRpc.Tokens
import BitcoinCoreRpc.Meaning
import BitcoinCoreRpc.Utf8
import BitcoinCoreRpc.Python

namespace BitcoinCoreRpc

open JsonText

/-! ### Numbers -/

/-- `int(token)` -/
def intOf (py : Interpreter) (number : Number) : Except Exc Int :=
  let digits := number.int.codes.length
  if py.maxStrDigits ≠ 0 ∧ py.maxStrDigits < digits then
    .error (.valueError (str "Exceeds the limit (" ++ natText py.maxStrDigits ++
      str " digits) for integer string conversion: value has " ++ natText digits ++
      str " digits; use sys.set_int_max_str_digits() to increase the limit"))
  else .ok number.intValue

/-- `Decimal(token)` -/
def decimalOf (py : Interpreter) (number : Number) : Except Exc Decimal :=
  if py.decimalBuilds number.coefficient number.exponent then
    .ok (.finite number.minus number.coefficient number.exponent)
  else if py.trapsInvalidOperation then
    .error (.decimalException (str "[<class 'decimal.InvalidOperation'>]"))
  else .ok .nan

/-- `_json_number` -/
def jsonNumber (py : Interpreter) (token : Number) : Except Exc Decimal := do
  let number ← decimalOf py token
  if !number.isFinite then .error (.fetchError (str "not a json number in the reply"))
  else if py.maxStrDigits ≠ 0 ∧ (py.maxStrDigits : Int) < |number.adjusted| then
    .error (.fetchError (str "a json number in the reply whose exponent is beyond" ++
      str " sys.get_int_max_str_digits (" ++ natText py.maxStrDigits ++ str ")"))
  else .ok number

/-- `_refuse_constant` -/
def refuseConstant {α : Type} (name : Str) : Except Exc α :=
  .error (.fetchError (str "not a json number in the reply: " ++ name))

/-- What a number token is parsed to. -/
def buildNumber (py : Interpreter) (number : Number) : Except Exc Json :=
  if number.isInt then (intOf py number).map .int else (jsonNumber py number).map .decimal

/-! ### The scanner -/

/-- The constant a text begins with that Python reads and JSON has not. -/
def matchConstant : List Nat → Option Str
  | 0x4E :: 0x61 :: 0x4E :: _ => some (str "NaN")
  | 0x49 :: 0x6E :: 0x66 :: 0x69 :: 0x6E :: 0x69 :: 0x74 :: 0x79 :: _ => some (str "Infinity")
  | 0x2D :: 0x49 :: 0x6E :: 0x66 :: 0x69 :: 0x6E :: 0x69 :: 0x74 :: 0x79 :: _ =>
    some (str "-Infinity")
  | _ => none

def literalValue : Literal → Json
  | .true => .bool true
  | .false => .bool false
  | .null => .null

def kindOf (code : Nat) : Option Kind :=
  if code = 0x5B then some .array else if code = 0x7B then some .object else none

/-- The container of its slots, in order, each under its name. -/
def containerValue (kind : Kind) (slots : List (Str × Json)) : Json :=
  match kind with
  | .array => .array (slots.map Prod.snd)
  | .object => .object (Dict.ofPairs slots)

def tooDeep : Exc :=
  .recursionError (str "maximum recursion depth exceeded")

section Scanner

variable (py : Interpreter) (malformed : Exc)

/-- A member's name and its colon, or nothing in an array. -/
def scanHead (kind : Kind) (text : List Nat) : Except Exc (Str × List Nat) :=
  match kind with
  | .array => .ok ([], dropBlank text)
  | .object =>
    match dropBlank text with
    | 0x22 :: rest =>
      match matchPieces rest with
      | none => .error malformed
      | some (name, rest) =>
        match dropBlank rest with
        | 0x3A :: rest => .ok (stringValue name, dropBlank rest)
        | _ => .error malformed
    | _ => .error malformed

mutual
/-- `scan_once`: the value a text begins with, and the rest. -/
def scanOnce : Nat → Nat → List Nat → Except Exc (Json × List Nat)
  | 0, _, _ => .error malformed
  | fuel + 1, budget, text =>
    match matchLiteral text, matchConstant text, matchNumber text with
    | some (which, rest), _, _ => .ok (literalValue which, rest)
    | _, some name, _ => refuseConstant name
    | _, _, some (number, rest) => (buildNumber py number).map (·, rest)
    | none, none, none =>
      match text with
      | [] => .error malformed
      | code :: rest =>
        if code = 0x22 then
          match matchPieces rest with
          | none => .error malformed
          | some (pieces, rest) => .ok (.string (stringValue pieces), rest)
        else
          match kindOf code, budget with
          | none, _ => .error malformed
          | some _, 0 => .error tooDeep
          | some kind, budget + 1 =>
            if (dropBlank rest).head? = some kind.closer then
              .ok (containerValue kind [], (dropBlank rest).tail)
            else
              (scanSlots fuel budget kind rest).map fun (slots, rest) =>
                (containerValue kind slots, rest)

/-- The slots of a container that has one, its closing bracket taken with them. -/
def scanSlots : Nat → Nat → Kind → List Nat → Except Exc (List (Str × Json) × List Nat)
  | 0, _, _, _ => .error malformed
  | fuel + 1, budget, kind, text => do
    let (name, rest) ← scanHead malformed kind text
    let (value, rest) ← scanOnce fuel budget rest
    match dropBlank rest with
    | [] => .error malformed
    | code :: rest =>
      if code = kind.closer then .ok ([(name, value)], rest)
      else if code = 0x2C then
        (scanSlots fuel budget kind rest).map fun (slots, rest) => ((name, value) :: slots, rest)
      else .error malformed
end

end Scanner

/-- `JSONDecoder.decode`: one value with white space around it. -/
def decodeDocument (py : Interpreter) (text : Str) : Except Exc Json :=
  let malformed := .jsonDecodeError (py.jsonErrorText text)
  match scanOnce py malformed (2 * text.length + 1) py.nesting (dropBlank text) with
  | .error e => .error e
  | .ok (value, rest) => if dropBlank rest = [] then .ok value else .error malformed

/-! ### Encodings -/

inductive Encoding
  | utf8
  | utf8Sig
  | utf16
  | utf16be
  | utf16le
  | utf32
  | utf32be
  | utf32le
deriving DecidableEq

/-- `json.detect_encoding` -/
def detectEncoding (octets : Bytes) : Encoding :=
  if [0x00, 0x00, 0xFE, 0xFF] <+: octets ∨ [0xFF, 0xFE, 0x00, 0x00] <+: octets then .utf32
  else if [0xFE, 0xFF] <+: octets ∨ [0xFF, 0xFE] <+: octets then .utf16
  else if [0xEF, 0xBB, 0xBF] <+: octets then .utf8Sig
  else
    match octets with
    | first :: second :: third :: fourth :: _ =>
      if first = 0 then if second ≠ 0 then .utf16be else .utf32be
      else if second = 0 then if third ≠ 0 ∨ fourth ≠ 0 then .utf16le else .utf32le
      else .utf8
    | [first, second] =>
      if first = 0 then .utf16be else if second = 0 then .utf16le else .utf8
    | _ => .utf8

/-- The units of two octets a text is of. -/
def units16 (big : Bool) : Bytes → Option (List Nat)
  | [] => some []
  | [_] => none
  | first :: second :: rest =>
    (units16 big rest).map
      ((if big then first * 0x100 + second else second * 0x100 + first) :: ·)

/-- `bytes.decode("utf-16-…", "surrogatepass")` -/
def decode16 (big : Bool) (octets : Bytes) : Option Str :=
  (units16 big octets).map fun units => joinHalves (units.map (·, true))

/-- `bytes.decode("utf-32-…", "surrogatepass")` -/
def decode32 (big : Bool) : Bytes → Option Str
  | [] => some []
  | first :: second :: third :: fourth :: rest =>
    let code := if big then ((first * 0x100 + second) * 0x100 + third) * 0x100 + fourth
      else ((fourth * 0x100 + third) * 0x100 + second) * 0x100 + first
    if code < 0x110000 then (decode32 big rest).map (code :: ·) else none
  | _ => none

/-- `bytes.decode(encoding, "surrogatepass")` -/
def decodeAs (encoding : Encoding) (octets : Bytes) : Option Str :=
  match encoding with
  | .utf8 => Utf8.decode true octets
  | .utf8Sig => Utf8.decode true (octets.drop 3)
  | .utf16 => decode16 (octets.head? == some 0xFE) (octets.drop 2)
  | .utf16be => decode16 true octets
  | .utf16le => decode16 false octets
  | .utf32 => decode32 (octets.head? == some 0x00) (octets.drop 4)
  | .utf32be => decode32 true octets
  | .utf32le => decode32 false octets

/-- `json.loads` on a `str`. -/
def loadsText (py : Interpreter) (text : Str) : Except Exc Json :=
  if text.head? = some 0xFEFF then .error (.jsonDecodeError (py.jsonErrorText text))
  else decodeDocument py text

/-- `json.loads` on a `bytes`, with `parse_float=_json_number` and
`parse_constant=_refuse_constant`. -/
def loads (py : Interpreter) : Loads := fun payload =>
  match decodeAs (detectEncoding payload) payload with
  | none => .error (.unicodeDecodeError [])
  | some text => decodeDocument py text

/-! ### What a tree builds -/

def headName {kind : Kind} : Head kind → Str
  | .item _ => []
  | .member _ name _ _ => stringValue name

section Build

variable (py : Interpreter)

mutual
/-- The value of a tree, with `budget` containers allowed inside one another. -/
def build : Value → Nat → Except Exc Json
  | .literal which, _ => .ok (literalValue which)
  | .number number, _ => buildNumber py number
  | .string pieces, _ => .ok (.string (stringValue pieces))
  | .empty _ _, 0 => .error tooDeep
  | .empty kind _, _ + 1 => .ok (containerValue kind [])
  | .full _ _ _ _, 0 => .error tooDeep
  | .full kind head value tail, budget + 1 => do
    let first ← build value budget
    let others ← buildTail tail budget
    return containerValue kind ((headName head, first) :: others)

/-- The slots of a tail. -/
def buildTail {kind : Kind} : Tail kind → Nat → Except Exc (List (Str × Json))
  | .close _, _ => .ok []
  | .more _ head value tail, budget => do
    let first ← build value budget
    let others ← buildTail tail budget
    return (headName head, first) :: others
end

end Build

/-! ### The scanner reads the text of a tree -/

section Scan

variable {py : Interpreter} {malformed : Exc}

theorem matchConstant_none {code : Nat} {rest : List Nat}
    (other : code ≠ 0x4E ∧ code ≠ 0x49 ∧ code ≠ 0x2D) : matchConstant (code :: rest) = none := by
  unfold matchConstant
  split
  · next same => exact absurd (List.cons.inj same).1 other.1
  · next same => exact absurd (List.cons.inj same).1 other.2.1
  · next same => exact absurd (List.cons.inj same).1 other.2.2
  · rfl

theorem matchConstant_number (number : Number) (rest : List Nat) :
    matchConstant (number.text ++ rest) = none := by
  obtain ⟨minus, int, frac, exp⟩ := number
  obtain ⟨code, codes, split⟩ := List.exists_cons_of_ne_nil int.nonempty
  have digit := int.digits code (by rw [split]; exact List.mem_cons_self)
  simp only [isDigit, Bool.and_eq_true, decide_eq_true_eq] at digit
  cases minus with
  | false =>
    simp only [Number.text, Bool.false_eq_true, if_false, List.nil_append, split, List.cons_append]
    exact matchConstant_none ⟨by omega, by omega, by omega⟩
  | true =>
    simp only [Number.text, if_true, List.cons_append, List.nil_append, split]
    unfold matchConstant
    split
    · next same => cases same
    · next same => cases same
    · next same =>
      have := (List.cons.inj (List.cons.inj same).2).1
      omega
    · rfl

theorem matchLiteral_number (number : Number) (rest : List Nat) :
    matchLiteral (number.text ++ rest) = none := by
  obtain ⟨code, codes, split, first⟩ := number.text_eq_cons
  rw [split]
  refine matchLiteral_none ?_
  rcases first with rfl | digit
  · decide
  · simp only [isDigit, Bool.and_eq_true, decide_eq_true_eq] at digit
    omega

theorem scanOnce_literal (fuel budget : Nat) (which : Literal) (rest : List Nat) :
    scanOnce py malformed (fuel + 1) budget (which.text ++ rest) =
      .ok (literalValue which, rest) := by
  simp only [scanOnce, matchLiteral_append]

theorem scanOnce_number (fuel budget : Nat) (number : Number) {rest : List Nat}
    (delimits : Delimits rest) :
    scanOnce py malformed (fuel + 1) budget (number.text ++ rest) =
      (buildNumber py number).map (·, rest) := by
  simp only [scanOnce, matchLiteral_number, matchConstant_number,
    matchNumber_append number delimits]

/-- A quotation mark or an opening bracket begins no other token. -/
theorem match_mark {code : Nat} (rest : List Nat)
    (mark : code = 0x22 ∨ code = 0x5B ∨ code = 0x7B) :
    matchLiteral (code :: rest) = none ∧ matchConstant (code :: rest) = none ∧
      matchNumber (code :: rest) = none := by
  refine ⟨matchLiteral_none (by omega), matchConstant_none (by omega),
    matchNumber_none (by omega) ?_⟩
  rcases mark with rfl | rfl | rfl <;> rfl

theorem scanOnce_string (fuel budget : Nat) (pieces : List Piece) (rest : List Nat) :
    scanOnce py malformed (fuel + 1) budget (quoted pieces ++ rest) =
      .ok (.string (stringValue pieces), rest) := by
  obtain ⟨literal, constant, number⟩ := match_mark
    (content pieces ++ 0x22 :: rest) (.inl rfl)
  have split : quoted pieces ++ rest = 0x22 :: (content pieces ++ 0x22 :: rest) := by
    simp [quoted]
  rw [split]
  simp only [scanOnce, literal, constant, number, if_true, matchPieces_append]

theorem kindOf_opener (kind : Kind) : kindOf kind.opener = some kind := by
  cases kind <;> rfl

theorem kindOf_eq_some {code : Nat} {kind : Kind} (found : kindOf code = some kind) :
    code = kind.opener := by
  unfold kindOf at found
  split_ifs at found with array object <;> cases found
  · exact array
  · exact object

theorem opener_cases (kind : Kind) :
    kind.opener = 0x22 ∨ kind.opener = 0x5B ∨ kind.opener = 0x7B := by
  cases kind <;> simp [Kind.opener]

/-- A container, past its opening bracket. -/
theorem scanOnce_opener (fuel budget : Nat) (kind : Kind) (rest : List Nat) :
    scanOnce py malformed (fuel + 1) budget (kind.opener :: rest) =
      match budget with
      | 0 => .error tooDeep
      | budget + 1 =>
        if (dropBlank rest).head? = some kind.closer then
          .ok (containerValue kind [], (dropBlank rest).tail)
        else
          (scanSlots py malformed fuel budget kind rest).map fun (slots, rest) =>
            (containerValue kind slots, rest) := by
  obtain ⟨literal, constant, number⟩ := match_mark rest
    (opener_cases kind)
  have other : kind.opener ≠ 0x22 := by cases kind <;> decide
  simp only [scanOnce, literal, constant, number, if_neg other, kindOf_opener]
  cases budget <;> rfl

theorem noBlank_value (value : Value) (rest : List Nat) : NoBlank (value.text ++ rest) := by
  obtain ⟨code, later, split, begins⟩ := value.text_eq_cons
  rw [split]
  exact noBlank_cons begins.ne.1

theorem scanHead_text {kind : Kind} (head : Head kind) {rest : List Nat} (solid : NoBlank rest) :
    scanHead malformed kind (head.text ++ rest) = .ok (headName head, rest) := by
  cases head with
  | item pad => simp only [scanHead, Head.text, dropBlank_append pad solid, headName]
  | member pad name gap lead =>
    have colon : NoBlank (0x3A :: (lead.codes ++ rest)) := noBlank_cons rfl
    have quote : NoBlank (0x22 :: (content name ++ 0x22 :: (gap.codes ++ 0x3A ::
        (lead.codes ++ rest)))) := noBlank_cons rfl
    have shape : (Head.member pad name gap lead).text ++ rest = pad.codes ++ 0x22 ::
        (content name ++ 0x22 :: (gap.codes ++ 0x3A :: (lead.codes ++ rest))) := by
      simp [Head.text, quoted]
    rw [shape]
    simp only [scanHead, dropBlank_append pad quote, matchPieces_append,
      dropBlank_append gap colon, dropBlank_append lead solid, headName]

/-- A slot does not begin with the closing bracket. -/
theorem head_ne_closer {kind : Kind} (head : Head kind) (value : Value) (rest : List Nat) :
    (dropBlank (head.text ++ value.text ++ rest)).head? ≠ some kind.closer := by
  obtain ⟨code, later, split, begins⟩ := value.text_eq_cons
  cases head with
  | item pad =>
    rw [Head.text, split, List.append_assoc, List.cons_append,
      dropBlank_append pad (noBlank_cons begins.ne.1)]
    simpa using begins.ne.2.1 .array
  | member pad name gap lead =>
    simp only [Head.text, quoted, List.append_assoc, List.cons_append]
    rw [dropBlank_append pad (noBlank_cons rfl)]
    exact fun same => absurd (Option.some.inj same) (by decide)

theorem delimits_cons {code : Nat} {rest : List Nat} (stops : continuesNumber code = false) :
    Delimits (code :: rest) := by simpa [Delimits] using stops

theorem delimits_blank (pad : Blank) {code : Nat} {rest : List Nat}
    (stops : continuesNumber code = false) : Delimits (pad.codes ++ code :: rest) := by
  obtain ⟨codes, blank⟩ := pad
  cases codes with
  | nil => exact delimits_cons stops
  | cons first others =>
    refine delimits_cons ?_
    have white := blank first List.mem_cons_self
    simp only [isBlank, Bool.or_eq_true, beq_iff_eq] at white
    rcases white with ((rfl | rfl) | rfl) | rfl <;> rfl

theorem delimits_tail {kind : Kind} (tail : Tail kind) (rest : List Nat) :
    Delimits (tail.text ++ rest) := by
  cases tail with
  | close pad =>
    rw [Tail.text, List.append_assoc]
    exact delimits_blank pad (by cases kind <;> rfl)
  | more pad head value tail =>
    rw [Tail.text, List.append_assoc]
    exact delimits_blank pad rfl

/-- The scanner answers what the tree builds, an error included, and leaves what follows its
text. -/
theorem scan_text (fuel : Nat) :
    (∀ (value : Value) (budget : Nat) (rest : List Nat), 2 * value.text.length + 1 ≤ fuel →
      Delimits rest → scanOnce py malformed fuel budget (value.text ++ rest) =
        (build py value budget).map (·, rest)) ∧
    (∀ (kind : Kind) (head : Head kind) (value : Value) (tail : Tail kind) (budget : Nat)
      (rest : List Nat), 2 * (head.text ++ value.text ++ tail.text).length + 2 ≤ fuel →
      scanSlots py malformed fuel budget kind (head.text ++ value.text ++ tail.text ++ rest) =
        (do
          let first ← build py value budget
          let others ← buildTail py tail budget
          return ((headName head, first) :: others, rest))) := by
  induction fuel with
  | zero => exact ⟨by intros; omega, by intros; omega⟩
  | succ fuel inductionHypothesis =>
    obtain ⟨scanValue, scanTail⟩ := inductionHypothesis
    refine ⟨fun value budget rest enough delimits => ?_,
      fun kind head value tail budget rest enough => ?_⟩
    · cases value with
      | literal which => exact scanOnce_literal fuel budget which rest
      | number number => exact scanOnce_number fuel budget number delimits
      | string pieces => exact scanOnce_string fuel budget pieces rest
      | empty kind pad =>
        have shape : (Value.empty kind pad).text ++ rest =
            kind.opener :: (pad.codes ++ kind.closer :: rest) := by simp [Value.text]
        have closes : dropBlank (pad.codes ++ kind.closer :: rest) = kind.closer :: rest :=
          dropBlank_append pad (noBlank_cons (by cases kind <;> rfl))
        rw [shape, scanOnce_opener, closes]
        cases budget with
        | zero => rfl
        | succ budget => simp [build, Except.map]
      | full kind head value tail =>
        have shape : (Value.full kind head value tail).text ++ rest =
            kind.opener :: (head.text ++ value.text ++ tail.text ++ rest) := by simp [Value.text]
        rw [shape, scanOnce_opener]
        cases budget with
        | zero => rfl
        | succ budget =>
          have opens := head_ne_closer head value (tail.text ++ rest)
          simp only [Value.text, List.length_cons] at enough
          simp only
          rw [if_neg (by simpa using opens), scanTail kind head value tail budget rest (by omega)]
          simp only [build]
          cases build py value budget with
          | error e => rfl
          | ok first => cases buildTail py tail budget <;> rfl
    · simp only [List.length_append] at enough
      simp only [scanSlots, List.append_assoc, scanHead_text head (noBlank_value value _)]
      show (scanOnce py malformed fuel budget (value.text ++ (tail.text ++ rest)) >>= _) = _
      rw [scanValue value budget _ (by omega) (delimits_tail tail rest)]
      cases build py value budget with
      | error e => rfl
      | ok first =>
        simp only [Except.map, bind, Except.bind]
        cases tail with
        | close pad =>
          have closes : dropBlank ((Tail.close pad : Tail kind).text ++ rest) =
              kind.closer :: rest := by
            rw [Tail.text, List.append_assoc]
            exact dropBlank_append pad (noBlank_cons (by cases kind <;> rfl))
          rw [closes]
          simp [buildTail, pure, Except.pure]
        | more pad head' value' tail' =>
          have more : dropBlank ((Tail.more pad head' value' tail').text ++ rest) =
              0x2C :: (head'.text ++ value'.text ++ tail'.text ++ rest) := by
            have shape : (Tail.more pad head' value' tail').text ++ rest = pad.codes ++
                0x2C :: (head'.text ++ value'.text ++ tail'.text ++ rest) := by
              simp [Tail.text]
            rw [shape]
            exact dropBlank_append pad (noBlank_cons rfl)
          simp only [Tail.text, List.length_append, List.length_cons] at enough
          rw [more]
          simp only
          rw [if_neg (by cases kind <;> decide), if_pos trivial,
            scanTail kind head' value' tail' budget rest (by simp only [List.length_append]; omega)]
          simp only [buildTail]
          cases build py value' budget with
          | error e => rfl
          | ok next => cases buildTail py tail' budget <;> rfl

/-! ### What scans is the text of a tree -/

theorem scanHead_sound {kind : Kind} {text rest : List Nat} {name : Str}
    (scanned : scanHead malformed kind text = .ok (name, rest)) :
    ∃ head : Head kind, text = head.text ++ rest ∧ name = headName head := by
  cases kind with
  | array =>
    simp only [scanHead, Except.ok.injEq, Prod.mk.injEq] at scanned
    obtain ⟨rfl, rfl⟩ := scanned
    exact ⟨.item (blankPrefix text), (blankPrefix_append text).symm, rfl⟩
  | object =>
    simp only [scanHead] at scanned
    split at scanned
    · next inside opened =>
      split at scanned
      · cases scanned
      · next pieces after found =>
        split at scanned
        · next colon gap =>
          cases scanned
          obtain ⟨pad, rfl⟩ := exists_blank opened
          obtain ⟨between, rfl⟩ := exists_blank gap
          refine ⟨.member pad pieces between (blankPrefix colon), ?_, rfl⟩
          rw [matchPieces_sound found]
          conv_lhs => rw [← blankPrefix_append colon]
          simp [Head.text, quoted]
        · cases scanned
    · cases scanned

/-- Whatever scans is the text of a tree that builds what was answered. -/
theorem scan_sound (fuel : Nat) :
    (∀ (budget : Nat) (text rest : List Nat) (answer : Json),
      scanOnce py malformed fuel budget text = .ok (answer, rest) →
      ∃ value, text = value.text ++ rest ∧ build py value budget = .ok answer) ∧
    (∀ (kind : Kind) (budget : Nat) (text rest : List Nat) (slots : List (Str × Json)),
      scanSlots py malformed fuel budget kind text = .ok (slots, rest) →
      ∃ (head : Head kind) (value : Value) (tail : Tail kind) (first : Json)
        (others : List (Str × Json)), text = head.text ++ value.text ++ tail.text ++ rest ∧
        build py value budget = .ok first ∧ buildTail py tail budget = .ok others ∧
          slots = (headName head, first) :: others) := by
  induction fuel with
  | zero => exact ⟨by rintro _ _ _ _ ⟨⟩, by rintro _ _ _ _ _ ⟨⟩⟩
  | succ fuel inductionHypothesis =>
    obtain ⟨soundValue, soundSlots⟩ := inductionHypothesis
    have soundOpener (kind : Kind) (budget : Nat) (after rest : List Nat) (answer : Json)
        (scanned : (if (dropBlank after).head? = some kind.closer then
            .ok (containerValue kind [], (dropBlank after).tail)
          else
            (scanSlots py malformed fuel budget kind after).map fun (slots, rest) =>
              (containerValue kind slots, rest)) = Except.ok (answer, rest)) :
        ∃ value, kind.opener :: after = value.text ++ rest ∧
          build py value (budget + 1) = .ok answer := by
      split_ifs at scanned with closes
      · obtain ⟨closed, split⟩ := List.head?_eq_some_iff.mp closes
        obtain ⟨pad, rfl⟩ := exists_blank split
        rw [split] at scanned
        cases scanned
        exact ⟨.empty kind pad, by simp [Value.text], rfl⟩
      · obtain ⟨⟨slots, later⟩, inner, same⟩ := map_eq_ok scanned
        cases same
        obtain ⟨head, value, tail, first, others, rfl, builtFirst, builtOthers, rfl⟩ :=
          soundSlots kind budget after rest slots inner
        refine ⟨.full kind head value tail, by simp [Value.text], ?_⟩
        simp only [build, builtFirst, builtOthers]
        rfl
    refine ⟨fun budget text rest answer scanned => ?_, fun kind budget text rest slots scanned => ?_⟩
    · cases literal : matchLiteral text with
      | some pair =>
        obtain ⟨which, after⟩ := pair
        simp only [scanOnce, literal] at scanned
        cases scanned
        exact ⟨.literal which, matchLiteral_sound literal, rfl⟩
      | none =>
        cases constant : matchConstant text with
        | some name =>
          simp only [scanOnce, literal, constant] at scanned
          cases scanned
        | none =>
          cases numeral : matchNumber text with
          | some pair =>
            obtain ⟨number, after⟩ := pair
            simp only [scanOnce, literal, constant, numeral] at scanned
            obtain ⟨value, built, same⟩ := map_eq_ok scanned
            cases same
            exact ⟨.number number, matchNumber_sound numeral, built⟩
          | none =>
            cases text with
            | nil =>
              simp only [scanOnce, literal, constant, numeral] at scanned
              cases scanned
            | cons code after =>
              simp only [scanOnce, literal, constant, numeral] at scanned
              split_ifs at scanned with quote
              · subst quote
                split at scanned
                · cases scanned
                · next pieces later found =>
                  cases scanned
                  refine ⟨.string pieces, ?_, rfl⟩
                  rw [matchPieces_sound found]
                  simp [Value.text, quoted]
              · split at scanned
                · cases scanned
                · cases scanned
                · next kind budget opened =>
                  obtain rfl := kindOf_eq_some opened
                  exact soundOpener kind budget after rest answer scanned
    · unfold scanSlots at scanned
      obtain ⟨⟨name, after⟩, headed, afterHead⟩ := bind_eq_ok scanned
      obtain ⟨head, rfl, rfl⟩ := scanHead_sound headed
      obtain ⟨⟨first, later⟩, valued, afterValue⟩ := bind_eq_ok afterHead
      obtain ⟨value, rfl, built⟩ := soundValue budget after later first valued
      simp only at afterValue
      split at afterValue
      · cases afterValue
      · next code more split =>
        obtain ⟨pad, rfl⟩ := exists_blank split
        split_ifs at afterValue with closes comma
        · cases afterValue
          exact ⟨head, value, .close pad, first, [], by simp [Tail.text, closes], built, rfl, rfl⟩
        · obtain ⟨⟨slots', last⟩, inner, same⟩ := map_eq_ok afterValue
          cases same
          obtain ⟨head', value', tail', first', others', rfl, built', others, rfl⟩ :=
            soundSlots kind budget more last slots' inner
          refine ⟨head, value, .more pad head' value' tail', first,
            (headName head', first') :: others', by simp [Tail.text, comma], built, ?_, rfl⟩
          simp only [buildTail, built', others, bind, Except.bind, pure, Except.pure]

end Scan

/-! ### What a tree builds, and when -/

/-- A number `json.loads` parses. -/
def Builds (py : Interpreter) (number : Number) : Prop :=
  ∃ value, buildNumber py number = .ok value

theorem exists_bind_ok {α β : Type} (first : Except Exc α) (rest : α → Except Exc β) :
    (∃ answer, first >>= rest = .ok answer) ↔
      ∃ value, first = .ok value ∧ ∃ answer, rest value = .ok answer := by
  cases first with
  | error e => simp [bind, Except.bind]
  | ok value => simp [bind, Except.bind]

mutual
/-- A tree builds where every number of it does and it nests within the budget. -/
theorem build_isOk (py : Interpreter) : (value : Value) → (budget : Nat) →
    ((∃ answer, build py value budget = .ok answer) ↔
      value.depth ≤ budget ∧ value.Numbers (Builds py))
  | .literal which, budget => by simp [build, Value.depth, Value.Numbers]
  | .number number, budget => by simp [build, Value.depth, Value.Numbers, Builds]
  | .string pieces, budget => by simp [build, Value.depth, Value.Numbers]
  | .empty kind pad, 0 => by simp [build, Value.depth]
  | .empty kind pad, budget + 1 => by simp [build, Value.depth, Value.Numbers]
  | .full kind head value tail, 0 => by simp [build, Value.depth]
  | .full kind head value tail, budget + 1 => by
    have first := build_isOk py value budget
    have others := buildTail_isOk py tail budget
    simp only [build, Value.depth, Value.Numbers, exists_bind_ok, pure, Except.pure,
      Except.ok.injEq, exists_eq', and_true, exists_and_right]
    rw [first, others, Nat.add_le_add_iff_right, max_le_iff]
    exact ⟨fun ⟨⟨a, b⟩, c, d⟩ => ⟨⟨a, c⟩, b, d⟩, fun ⟨⟨a, c⟩, b, d⟩ => ⟨⟨a, b⟩, c, d⟩⟩

theorem buildTail_isOk (py : Interpreter) {kind : Kind} : (tail : Tail kind) → (budget : Nat) →
    ((∃ slots, buildTail py tail budget = .ok slots) ↔
      tail.depth ≤ budget ∧ tail.Numbers (Builds py))
  | .close pad, budget => by simp [buildTail, Tail.depth, Tail.Numbers]
  | .more pad head value tail, budget => by
    have first := build_isOk py value budget
    have others := buildTail_isOk py tail budget
    simp only [buildTail, Tail.depth, Tail.Numbers, exists_bind_ok, pure, Except.pure,
      Except.ok.injEq, exists_eq', and_true, exists_and_right]
    rw [first, others, max_le_iff]
    exact ⟨fun ⟨⟨a, b⟩, c, d⟩ => ⟨⟨a, c⟩, b, d⟩, fun ⟨⟨a, c⟩, b, d⟩ => ⟨⟨a, b⟩, c, d⟩⟩
end

mutual
/-- What a tree builds does not depend on the budget it builds within. -/
theorem build_budget (py : Interpreter) : (value : Value) → {budget more : Nat} →
    {answer : Json} → build py value budget = .ok answer → value.depth ≤ more →
      build py value more = .ok answer
  | .literal which, _, _, _, built, _ => built
  | .number number, _, _, _, built, _ => built
  | .string pieces, _, _, _, built, _ => built
  | .empty kind pad, 0, _, _, built, _ => by cases built
  | .empty kind pad, budget + 1, 0, _, _, room => by simp [Value.depth] at room
  | .empty kind pad, budget + 1, more + 1, _, built, _ => built
  | .full kind head value tail, 0, _, _, built, _ => by cases built
  | .full kind head value tail, budget + 1, 0, _, _, room => by simp [Value.depth] at room
  | .full kind head value tail, budget + 1, more + 1, answer, built, room => by
    simp only [Value.depth, Nat.add_le_add_iff_right, max_le_iff] at room
    simp only [build] at built ⊢
    cases first : build py value budget with
    | error e => simp [first, bind, Except.bind] at built
    | ok value' =>
      cases others : buildTail py tail budget with
      | error e => simp [first, others, bind, Except.bind] at built
      | ok slots =>
        rw [build_budget py value first room.1, buildTail_budget py tail others room.2]
        simpa [first, others, bind, Except.bind] using built

theorem buildTail_budget (py : Interpreter) {kind : Kind} : (tail : Tail kind) →
    {budget more : Nat} → {slots : List (Str × Json)} → buildTail py tail budget = .ok slots →
      tail.depth ≤ more → buildTail py tail more = .ok slots
  | .close pad, _, _, _, built, _ => built
  | .more pad head value tail, budget, more, answer, built, room => by
    simp only [Tail.depth, max_le_iff] at room
    simp only [buildTail] at built ⊢
    cases first : build py value budget with
    | error e => simp [first, bind, Except.bind] at built
    | ok value' =>
      cases others : buildTail py tail budget with
      | error e => simp [first, others, bind, Except.bind] at built
      | ok slots =>
        rw [build_budget py value first room.1, buildTail_budget py tail others room.2]
        simpa [first, others, bind, Except.bind] using built
end

mutual
/-- A tree whose numbers build fails to for its depth alone. -/
theorem build_tooDeep {py : Interpreter} {e : Exc} : (value : Value) → {budget : Nat} →
    value.Numbers (Builds py) → build py value budget = .error e → e = tooDeep
  | .literal which, _, _, raised => by cases raised
  | .number number, _, ⟨answer, built⟩, raised => by cases built.symm.trans raised
  | .string pieces, _, _, raised => by cases raised
  | .empty kind pad, 0, _, raised => (Except.error.inj raised).symm
  | .empty kind pad, budget + 1, _, raised => by cases raised
  | .full kind head value tail, 0, _, raised => (Except.error.inj raised).symm
  | .full kind head value tail, budget + 1, numbers, raised => by
    rw [build] at raised
    rcases bind_eq_error raised with first | ⟨_, _, raised⟩
    · exact build_tooDeep value numbers.1 first
    · rcases bind_eq_error raised with others | ⟨_, _, done⟩
      · exact buildTail_tooDeep tail numbers.2 others
      · cases done

theorem buildTail_tooDeep {py : Interpreter} {e : Exc} {kind : Kind} : (tail : Tail kind) →
    {budget : Nat} → tail.Numbers (Builds py) → buildTail py tail budget = .error e → e = tooDeep
  | .close pad, _, _, raised => by cases raised
  | .more pad head value tail, budget, numbers, raised => by
    rw [buildTail] at raised
    rcases bind_eq_error raised with first | ⟨_, _, raised⟩
    · exact build_tooDeep value numbers.1 first
    · rcases bind_eq_error raised with others | ⟨_, _, done⟩
      · exact buildTail_tooDeep tail numbers.2 others
      · cases done
end

/-! ### What `json.loads` answers -/

/-- A document is what its tree builds. -/
theorem decodeDocument_text (py : Interpreter) (document : Document) :
    decodeDocument py document.text = build py document.value py.nesting := by
  obtain ⟨before, value, after⟩ := document
  have begins : dropBlank (before.codes ++ value.text ++ after.codes) =
      value.text ++ after.codes := by
    rw [List.append_assoc, dropBlank_append before (noBlank_value value _)]
  have delimits : Delimits after.codes := by
    cases split : after.codes with
    | nil => simp [Delimits]
    | cons code rest =>
      refine delimits_cons ?_
      have white := after.blank code (by rw [split]; exact List.mem_cons_self)
      simp only [isBlank, Bool.or_eq_true, beq_iff_eq] at white
      rcases white with ((rfl | rfl) | rfl) | rfl <;> rfl
  have ends : dropBlank after.codes = [] := by
    simpa using @dropBlank_append [] after noBlank_nil
  simp only [decodeDocument, Document.text]
  rw [begins, (scan_text _).1 value py.nesting after.codes
    (by simp only [List.length_append]; omega) delimits]
  cases build py value py.nesting with
  | error e => rfl
  | ok answer => simp [Except.map, ends]

/-- A text decodes exactly where it is a document's whose tree builds. -/
theorem decodeDocument_eq_ok {py : Interpreter} {text : Str} {answer : Json} :
    decodeDocument py text = .ok answer ↔
      ∃ document : Document, document.text = text ∧
        build py document.value py.nesting = .ok answer := by
  constructor
  · intro decoded
    simp only [decodeDocument] at decoded
    split at decoded
    · cases decoded
    · next value rest scanned =>
      split_ifs at decoded with ends
      cases decoded
      obtain ⟨tree, split, built⟩ := (scan_sound _).1 _ _ _ _ scanned
      obtain ⟨before, shape⟩ := exists_blank split
      obtain ⟨after, rfl⟩ := exists_blank ends
      exact ⟨⟨before, tree, after⟩, by simp [Document.text, shape], built⟩
  · rintro ⟨document, rfl, built⟩
    rw [decodeDocument_text, built]

/-- Octets that begin with ASCII and have no NUL among them are taken for UTF-8. -/
theorem detectEncoding_of_noNul {first : Nat} {rest : Bytes} (ascii : first < 0x80)
    (noNul : ∀ octet ∈ first :: rest, 0 < octet) : detectEncoding (first :: rest) = .utf8 := by
  have positive := noNul first List.mem_cons_self
  have mark (octet : Nat) (more : Bytes) (other : octet ≠ first) :
      ¬ octet :: more <+: first :: rest :=
    fun front => other (List.cons_prefix_cons.mp front).1
  unfold detectEncoding
  rw [if_neg (not_or.mpr ⟨mark _ _ (by omega), mark _ _ (by omega)⟩),
    if_neg (not_or.mpr ⟨mark _ _ (by omega), mark _ _ (by omega)⟩), if_neg (mark _ _ (by omega))]
  rcases rest with _ | ⟨second, _ | ⟨third, _ | ⟨fourth, rest⟩⟩⟩
  · rfl
  · have := noNul second (by simp)
    simp only
    rw [if_neg (by omega), if_neg (by omega)]
  · rfl
  · have := noNul second (by simp)
    simp only
    rw [if_neg (by omega), if_neg (by omega)]

/-! ### What `json.loads` raises -/

theorem buildNumber_raises {py : Interpreter} {number : Number} {e : Exc}
    (raised : buildNumber py number = .error e) : e.FromLoads := by
  unfold buildNumber at raised
  split_ifs at raised with integral
  · have limited := map_eq_error raised
    simp only [intOf] at limited
    split_ifs at limited
    cases limited
    exact .inl rfl
  · simp only [jsonNumber, decimalOf] at raised
    split_ifs at raised <;> simp only [bind, Except.bind, Except.map, Decimal.isFinite,
      Bool.not_true, Bool.not_false, Bool.false_eq_true, if_true, if_false] at raised
    · split_ifs at raised
      cases raised
      exact .inr (.inr (.inr ⟨_, rfl⟩))
    · cases raised
      exact .inr (.inr (.inl rfl))
    · cases raised
      exact .inr (.inr (.inr ⟨_, rfl⟩))

theorem scanHead_raises {malformed : Exc} {kind : Kind} {text : List Nat} {e : Exc}
    (raised : scanHead malformed kind text = .error e) : e = malformed := by
  unfold scanHead at raised
  split at raised
  · cases raised
  · split at raised
    · split at raised
      · cases raised
        rfl
      · split at raised <;> cases raised
        rfl
    · cases raised
      rfl

section Raising

variable {py : Interpreter} {raises : Exc → Prop}

/-- What the scan raises is what it refuses a text as, or what one of the two hooks raises. -/
theorem scan_raises {malformed : Exc} (broken : raises malformed) (deep : raises tooDeep)
    (constant : ∀ text name, matchConstant text = some name →
      raises (.fetchError (str "not a json number in the reply: " ++ name)))
    (number : ∀ number e, buildNumber py number = .error e → raises e) (fuel : Nat) :
    (∀ (budget : Nat) (text : List Nat) (e : Exc),
      scanOnce py malformed fuel budget text = .error e → raises e) ∧
    (∀ (budget : Nat) (kind : Kind) (text : List Nat) (e : Exc),
      scanSlots py malformed fuel budget kind text = .error e → raises e) := by
  induction fuel with
  | zero =>
    refine ⟨fun budget text e raised => ?_, fun budget kind text e raised => ?_⟩ <;>
      · cases raised
        exact broken
  | succ fuel inductionHypothesis =>
    obtain ⟨raisesValue, raisesSlots⟩ := inductionHypothesis
    refine ⟨fun budget text e raised => ?_, fun budget kind text e raised => ?_⟩
    · unfold scanOnce at raised
      split at raised
      · cases raised
      · rename_i name _ read _
        cases raised
        exact constant _ _ read
      · exact number _ _ (map_eq_error raised)
      · split at raised
        · cases raised
          exact broken
        · next code rest =>
          split_ifs at raised with quote
          · split at raised <;> cases raised
            exact broken
          · split at raised
            · cases raised
              exact broken
            · cases raised
              exact deep
            · split_ifs at raised
              exact raisesSlots _ _ _ _ (map_eq_error raised)
    · unfold scanSlots at raised
      rcases bind_eq_error raised with headed | ⟨⟨name, after⟩, _, afterHead⟩
      · rw [scanHead_raises headed]
        exact broken
      · rcases bind_eq_error afterHead with valued | ⟨⟨value, later⟩, _, afterValue⟩
        · exact raisesValue _ _ _ valued
        · simp only at afterValue
          split at afterValue
          · cases afterValue
            exact broken
          · split_ifs at afterValue
            · exact raisesSlots _ _ _ _ (map_eq_error afterValue)
            · cases afterValue
              exact broken

/-- What `json.loads` raises is what it refuses octets or a text as, or what one of the two hooks
raises. -/
theorem loads_eq_error {payload : Bytes} {e : Exc} (undecoded : raises (.unicodeDecodeError []))
    (broken : ∀ text, raises (.jsonDecodeError (py.jsonErrorText text))) (deep : raises tooDeep)
    (constant : ∀ text name, matchConstant text = some name →
      raises (.fetchError (str "not a json number in the reply: " ++ name)))
    (number : ∀ number e, buildNumber py number = .error e → raises e)
    (raised : loads py payload = .error e) : raises e := by
  unfold loads at raised
  split at raised
  · cases raised
    exact undecoded
  · simp only [decodeDocument] at raised
    split at raised
    · next scanned =>
      cases raised
      exact (scan_raises (broken _) deep constant number _).1 _ _ _ scanned
    · split_ifs at raised
      cases raised
      exact broken _

/-- `json.loads` raises what the readers of a reply rely on. -/
theorem loads_raises (py : Interpreter) : LoadsRaises (loads py) := by
  intro payload e
  exact loads_eq_error (.inl rfl) (fun _ => .inl rfl) (.inr (.inl rfl))
    (fun _ _ _ => .inr (.inr (.inr ⟨_, rfl⟩))) (fun _ _ => buildNumber_raises)

end Raising

end BitcoinCoreRpc
