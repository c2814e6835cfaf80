/-
This file is the grammar of RFC 8259 as data, as a library.

A text is a list of numbers, octets and code points alike: every character the
grammar names is ASCII, and any other code is only ever the plain content of a
string, so one grammar serves both. A syntax tree carries every token of the text
it stands for, blanks included, and each token is a structure that holds the proof
it is one. A tree is therefore well formed by construction, its text is computed,
and a text is JSON exactly when some tree has it.

The shape of a container follows what a reader of it does: an opening bracket, the
head of the first slot, a value, and then a tail that either closes or separates
and goes on. The two kinds of container differ in the head alone, a member's name
and colon against nothing.
-/

import Mathlib

namespace JsonText

/-! ### Classes of codes -/

/-- A code JSON reads as white space. -/
def isBlank (code : Nat) : Bool :=
  code == 0x20 || code == 0x09 || code == 0x0A || code == 0x0D

def isDigit (code : Nat) : Bool :=
  0x30 ≤ code && code ≤ 0x39

def isHex (code : Nat) : Bool :=
  isDigit code || (0x41 ≤ code && code ≤ 0x46) || (0x61 ≤ code && code ≤ 0x66)

/-- A code that stands for itself in a string: no control, quotation mark or backslash. -/
def isPlain (code : Nat) : Bool :=
  0x20 ≤ code && code != 0x22 && code != 0x5C

/-- A code a backslash may stand before, `u` apart. -/
def isEscape (code : Nat) : Bool :=
  code == 0x22 || code == 0x5C || code == 0x2F || code == 0x62 || code == 0x66 ||
    code == 0x6E || code == 0x72 || code == 0x74

/-- A code that could carry a number on: what follows a number is delimited by any other. -/
def continuesNumber (code : Nat) : Bool :=
  isDigit code || code == 0x2E || code == 0x65 || code == 0x45

/-- A text that does not begin by carrying a number on. -/
def Delimits (rest : List Nat) : Prop :=
  ∀ code ∈ rest.head?, continuesNumber code = false

/-! ### Tokens -/

/-- A run of white space, possibly empty. -/
structure Blank where
  codes : List Nat
  blank : ∀ code ∈ codes, isBlank code = true

/-- A nonempty run of digits. -/
structure Digits where
  codes : List Nat
  nonempty : codes ≠ []
  digits : ∀ code ∈ codes, isDigit code = true

/-- The integer part of a number: `0` alone, or digits that begin with another. -/
structure Integer extends Digits where
  canonical : codes = [0x30] ∨ codes.head? ≠ some 0x30

/-- The exponent part of a number. -/
structure Exponent where
  mark : Nat
  marked : mark = 0x65 ∨ mark = 0x45
  sign : Option Nat
  signed : sign = none ∨ sign = some 0x2B ∨ sign = some 0x2D
  digits : Digits

/-- A number token. -/
structure Number where
  minus : Bool
  int : Integer
  frac : Option Digits
  exp : Option Exponent

/-- One piece of a string's content. -/
inductive Piece
  | plain (code : Nat) (ok : isPlain code = true)
  | escape (code : Nat) (ok : isEscape code = true)
  | hex (first second third fourth : Nat)
    (ok : isHex first = true ∧ isHex second = true ∧ isHex third = true ∧ isHex fourth = true)

inductive Literal
  | true
  | false
  | null
deriving DecidableEq

inductive Kind
  | array
  | object
deriving DecidableEq

instance : Fintype Kind := ⟨{.array, .object}, fun kind => by cases kind <;> decide⟩

def Kind.opener : Kind → Nat
  | .array => 0x5B
  | .object => 0x7B

def Kind.closer : Kind → Nat
  | .array => 0x5D
  | .object => 0x7D

def Literal.text : Literal → List Nat
  | .true => [0x74, 0x72, 0x75, 0x65]
  | .false => [0x66, 0x61, 0x6C, 0x73, 0x65]
  | .null => [0x6E, 0x75, 0x6C, 0x6C]

def Piece.text : Piece → List Nat
  | .plain code _ => [code]
  | .escape code _ => [0x5C, code]
  | .hex first second third fourth _ => [0x5C, 0x75, first, second, third, fourth]

/-- The content of a string, between its quotation marks. -/
def content (pieces : List Piece) : List Nat :=
  pieces.flatMap Piece.text

/-- A string with its quotation marks. -/
def quoted (pieces : List Piece) : List Nat :=
  0x22 :: (content pieces ++ [0x22])

def Exponent.text (exponent : Exponent) : List Nat :=
  exponent.mark :: (exponent.sign.toList ++ exponent.digits.codes)

def fracText : Option Digits → List Nat
  | none => []
  | some digits => 0x2E :: digits.codes

def expText : Option Exponent → List Nat
  | none => []
  | some exponent => exponent.text

def Number.text (number : Number) : List Nat :=
  (if number.minus then [0x2D] else []) ++ number.int.codes ++ fracText number.frac ++
    expText number.exp

/-! ### Syntax trees -/

/-- What stands before a value in a slot of a container: nothing but white space in an array,
the member's name and a colon in an object. -/
inductive Head : Kind → Type
  | item (pad : Blank) : Head .array
  | member (pad : Blank) (name : List Piece) (gap lead : Blank) : Head .object

mutual
/-- A JSON value. -/
inductive Value : Type
  | literal (which : Literal)
  | number (number : Number)
  | string (pieces : List Piece)
  | empty (kind : Kind) (pad : Blank)
  | full (kind : Kind) (head : Head kind) (value : Value) (tail : Tail kind)

/-- What follows a value in a container: its end, or a comma and another slot. -/
inductive Tail : Kind → Type
  | close {kind : Kind} (pad : Blank) : Tail kind
  | more {kind : Kind} (pad : Blank) (head : Head kind) (value : Value) (tail : Tail kind) :
    Tail kind
end

def Head.text {kind : Kind} : Head kind → List Nat
  | .item pad => pad.codes
  | .member pad name gap lead => pad.codes ++ quoted name ++ gap.codes ++ 0x3A :: lead.codes

mutual
/-- The text of a value. -/
def Value.text : Value → List Nat
  | .literal which => which.text
  | .number number => number.text
  | .string pieces => quoted pieces
  | .empty kind pad => kind.opener :: (pad.codes ++ [kind.closer])
  | .full kind head value tail => kind.opener :: (head.text ++ value.text ++ tail.text)

/-- The text of what follows a value in a container. -/
def Tail.text {kind : Kind} : Tail kind → List Nat
  | .close pad => pad.codes ++ [kind.closer]
  | .more pad head value tail =>
    pad.codes ++ 0x2C :: (head.text ++ value.text ++ tail.text)
end

mutual
/-- How deep the containers of a value nest, itself included. -/
def Value.depth : Value → Nat
  | .literal _ | .number _ | .string _ => 0
  | .empty _ _ => 1
  | .full _ _ value tail => max value.depth tail.depth + 1

/-- How deep the values after a comma nest. -/
def Tail.depth {kind : Kind} : Tail kind → Nat
  | .close _ => 0
  | .more _ _ value tail => max value.depth tail.depth
end

mutual
/-- Every number token of a value satisfies `holds`. -/
def Value.Numbers (holds : Number → Prop) : Value → Prop
  | .literal _ | .string _ | .empty _ _ => True
  | .number number => holds number
  | .full _ _ value tail => value.Numbers holds ∧ tail.Numbers holds

/-- Every number token after a comma satisfies `holds`. -/
def Tail.Numbers (holds : Number → Prop) {kind : Kind} : Tail kind → Prop
  | .close _ => True
  | .more _ _ value tail => value.Numbers holds ∧ tail.Numbers holds
end

mutual
theorem Value.Numbers.mono {holds weaker : Number → Prop}
    (implies : ∀ number, holds number → weaker number) : {value : Value} → value.Numbers holds →
      value.Numbers weaker
  | .literal _, _ | .string _, _ | .empty _ _, _ => trivial
  | .number number, numbers => implies number numbers
  | .full _ _ _ _, numbers => ⟨Value.Numbers.mono implies numbers.1, Tail.Numbers.mono implies numbers.2⟩

theorem Tail.Numbers.mono {holds weaker : Number → Prop}
    (implies : ∀ number, holds number → weaker number) {kind : Kind} : {tail : Tail kind} →
      tail.Numbers holds → tail.Numbers weaker
  | .close _, _ => trivial
  | .more _ _ _ _, numbers => ⟨Value.Numbers.mono implies numbers.1, Tail.Numbers.mono implies numbers.2⟩
end

mutual
theorem Value.Numbers.and {holds others : Number → Prop} : {value : Value} →
    value.Numbers holds → value.Numbers others →
      value.Numbers fun number => holds number ∧ others number
  | .literal _, _, _ | .string _, _, _ | .empty _ _, _, _ => trivial
  | .number _, first, second => ⟨first, second⟩
  | .full _ _ _ _, first, second => ⟨first.1.and second.1, first.2.and second.2⟩

theorem Tail.Numbers.and {holds others : Number → Prop} {kind : Kind} : {tail : Tail kind} →
    tail.Numbers holds → tail.Numbers others →
      tail.Numbers fun number => holds number ∧ others number
  | .close _, _, _ => trivial
  | .more _ _ _ _, first, second => ⟨first.1.and second.1, first.2.and second.2⟩
end

/-- The name of a member, as it is written. -/
def Head.pieces : Head .object → List Piece
  | .member _ name _ _ => name

/-- The slots after a comma, in order. -/
def Tail.slots {kind : Kind} : Tail kind → List (Head kind × Value)
  | .close _ => []
  | .more _ head value tail => (head, value) :: tail.slots

/-- The members of an object, in order: nothing in any other value. -/
def Value.members : Value → List (Head .object × Value)
  | .full .object head value tail => (head, value) :: tail.slots
  | _ => []

/-- A value is an object. -/
def Value.IsObject : Value → Prop
  | .empty .object _ | .full .object _ _ _ => True
  | _ => False

theorem Tail.numbers_slots {holds : Number → Prop} {kind : Kind} : (tail : Tail kind) →
    (tail.Numbers holds ↔ ∀ slot ∈ tail.slots, slot.2.Numbers holds)
  | .close _ => by simp [Tail.Numbers, Tail.slots]
  | .more _ _ _ tail => by simp [Tail.Numbers, Tail.slots, tail.numbers_slots]

/-- The numbers of an object are those of its members. -/
theorem Value.numbers_members {holds : Number → Prop} : (object : Value) → object.IsObject →
    (object.Numbers holds ↔ ∀ slot ∈ object.members, slot.2.Numbers holds)
  | .empty .object _, _ => by simp [Value.Numbers, Value.members]
  | .full .object _ _ tail, _ => by simp [Value.Numbers, Value.members, tail.numbers_slots]

theorem Tail.depth_slots {kind : Kind} {limit : Nat} : (tail : Tail kind) →
    (tail.depth ≤ limit ↔ ∀ slot ∈ tail.slots, slot.2.depth ≤ limit)
  | .close _ => by simp [Tail.depth, Tail.slots]
  | .more _ _ _ tail => by simp [Tail.depth, Tail.slots, tail.depth_slots]

/-- An object nests one deeper than its members. -/
theorem Value.depth_members {limit : Nat} : (object : Value) → object.IsObject →
    (object.depth ≤ limit + 1 ↔ ∀ slot ∈ object.members, slot.2.depth ≤ limit)
  | .empty .object _, _ => by simp [Value.depth, Value.members]
  | .full .object _ _ tail, _ => by simp [Value.depth, Value.members, tail.depth_slots]

/-- A JSON text: a value with white space around it. -/
structure Document where
  before : Blank
  value : Value
  after : Blank

def Document.text (document : Document) : List Nat :=
  document.before.codes ++ document.value.text ++ document.after.codes

@[simp] theorem content_nil : content [] = [] := rfl

@[simp] theorem content_cons (piece : Piece) (pieces : List Piece) :
    content (piece :: pieces) = piece.text ++ content pieces := rfl

@[simp] theorem content_append (first second : List Piece) :
    content (first ++ second) = content first ++ content second :=
  List.flatMap_append

/-! ### How a value begins -/

/-- The code a value begins with. -/
inductive Begins : Nat → Prop
  | literal (which : Literal) (code : Nat) (first : which.text.head? = some code) : Begins code
  | number (code : Nat) (first : code = 0x2D ∨ isDigit code = true) : Begins code
  | string : Begins 0x22
  | container (kind : Kind) : Begins kind.opener

theorem Number.text_eq_cons (number : Number) :
    ∃ code rest, number.text = code :: rest ∧ (code = 0x2D ∨ isDigit code = true) := by
  unfold Number.text
  cases number.minus with
  | true => exact ⟨0x2D, _, rfl, .inl rfl⟩
  | false =>
    obtain ⟨code, rest, codes⟩ := List.exists_cons_of_ne_nil number.int.nonempty
    refine ⟨code, rest ++ fracText number.frac ++ expText number.exp, ?_, .inr ?_⟩
    · simp [codes]
    · exact number.int.digits code (by rw [codes]; exact List.mem_cons_self)

theorem Value.text_eq_cons (value : Value) :
    ∃ code rest, value.text = code :: rest ∧ Begins code := by
  cases value with
  | literal which => exact match which with
    | .true => ⟨_, _, rfl, .literal .true _ rfl⟩
    | .false => ⟨_, _, rfl, .literal .false _ rfl⟩
    | .null => ⟨_, _, rfl, .literal .null _ rfl⟩
  | number number =>
    obtain ⟨code, rest, text, first⟩ := number.text_eq_cons
    exact ⟨code, rest, text, .number code first⟩
  | string pieces => exact ⟨0x22, _, rfl, .string⟩
  | empty kind pad => exact ⟨kind.opener, _, rfl, .container kind⟩
  | full kind head value tail => exact ⟨kind.opener, _, rfl, .container kind⟩

theorem Value.text_pos (value : Value) : 0 < value.text.length := by
  obtain ⟨code, rest, text, _⟩ := value.text_eq_cons
  rw [text]
  exact Nat.succ_pos _

/-- No value begins with white space, a closing bracket, a comma or a colon. -/
theorem Begins.ne {code : Nat} (begins : Begins code) :
    isBlank code = false ∧ (∀ kind : Kind, code ≠ kind.closer) ∧ code ≠ 0x2C ∧ code ≠ 0x3A := by
  cases begins with
  | literal which code first =>
    cases which <;> simp only [Literal.text, List.head?_cons, Option.some.injEq] at first <;>
      subst first <;> decide
  | number code first =>
    rcases first with rfl | digit
    · decide
    · simp only [isDigit, Bool.and_eq_true, decide_eq_true_eq] at digit
      refine ⟨?_, ?_, by omega, by omega⟩
      · simp only [isBlank, Bool.or_eq_false_iff, beq_eq_false_iff_ne]
        omega
      · rintro (_ | _) <;> simp only [Kind.closer] <;> omega
  | string => decide
  | container kind => cases kind <;> decide

end JsonText
