/-
This file proves that a request is written as what it was given: the writer's text is
JSON in ASCII, and the reader this package reads replies with takes it back to an
equal value.

The writer is followed into the grammar. Each token it writes is a token of the
grammar with the meaning it was written for, each container it joins is a tree over
the trees of its elements, and what the tree builds is the value, element by element.
The reading then needs no argument of its own, a tree's text being read as what the
tree builds.
-/

import BitcoinCoreRpc.Request
import BitcoinCoreRpc.Loads

namespace BitcoinCoreRpc

open JsonText

/-! ### Values -/

/-- The tree a value of the caller's unfolds to, built from what json has. -/
inductive Param
  | none
  | bool (value : Bool)
  | int (value : Int)
  | str (value : Str)
  | decimal (value : Decimal)
  | dict (members : List (Str × Param))
  | list (items : List Param)
  | tuple (items : List Param)

/-- What an object unfolds to, within `depth` levels: nothing where it reaches an object of
another kind, a name that is no string, or a name twice in one `dict`, which no `dict` holds. -/
def Heap.unfold (heap : Heap) : (depth : Nat) → Obj → Option Param
  | 0, _ => Option.none
  | depth + 1, value =>
    match value with
    | .none => some .none
    | .bool value => some (.bool value)
    | .int value => some (.int value)
    | .str value => some (.str value)
    | .decimal value => some (.decimal value)
    | .dict members => do
      let members ← members.mapM fun (name, item) =>
        match heap.object name with
        | .str text => (heap.unfold depth (heap.object item)).map (text, ·)
        | _ => Option.none
      if (members.map Prod.fst).Nodup then some (.dict members) else Option.none
    | .list items => (items.mapM fun item => heap.unfold depth (heap.object item)).map .list
    | .tuple items => (items.mapM fun item => heap.unfold depth (heap.object item)).map .tuple
    | _ => Option.none

mutual
/-- Every leaf of a value satisfies `holds`, and every name as the string it is. -/
def Param.Every (holds : Param → Prop) : Param → Prop
  | .dict members => EveryMember holds members
  | .list items | .tuple items => EveryItem holds items
  | .none => holds .none
  | .bool value => holds (.bool value)
  | .int value => holds (.int value)
  | .str value => holds (.str value)
  | .decimal value => holds (.decimal value)

def EveryItem (holds : Param → Prop) : List Param → Prop
  | [] => True
  | item :: rest => item.Every holds ∧ EveryItem holds rest

def EveryMember (holds : Param → Prop) : List (Str × Param) → Prop
  | [] => True
  | (name, item) :: rest => holds (.str name) ∧ item.Every holds ∧ EveryMember holds rest
end

/-! ### Numbers -/

/-- The number a finite decimal is. -/
def Decimal.toRat : Decimal → Option ℚ
  | .finite negative coefficient exponent =>
    some ((if negative then -1 else 1) * coefficient * (10 : ℚ) ^ exponent)
  | _ => none

/-- The number a json number is. -/
def Json.toRat : Json → Option ℚ
  | .int value => some value
  | .decimal value => value.toRat
  | _ => none

/-- A value and what it is read back as: equal, with a tuple as an array and a decimal as a
number equal to it. -/
inductive Equal : Param → Json → Prop
  | none : Equal .none .null
  | bool (value : Bool) : Equal (.bool value) (.bool value)
  | int (value : Int) : Equal (.int value) (.int value)
  | str (value : Str) : Equal (.str value) (.string value)
  | decimal (value : Decimal) (read : Json) (same : read.toRat = value.toRat)
    (number : read.toRat ≠ Option.none) : Equal (.decimal value) read
  | dict (members : List (Str × Param)) (read : Dict)
    (names : members.map Prod.fst = read.map Prod.fst)
    (all : List.Forall₂ Equal (members.map Prod.snd) (read.map Prod.snd)) :
    Equal (.dict members) (.object read)
  | list (items : List Param) (read : List Json) (all : List.Forall₂ Equal items read) :
    Equal (.list items) (.array read)
  | tuple (items : List Param) (read : List Json) (all : List.Forall₂ Equal items read) :
    Equal (.tuple items) (.array read)

/-- An integer as a number token. -/
def intNumber (number : Int) : Number :=
  ⟨decide (number < 0), integerOf number.natAbs, none, none⟩

theorem intNumber_text (number : Int) : (intNumber number).text = intText number := by
  simp only [Number.text, intNumber, fracText, expText, List.append_nil, intText, natText,
    decide_eq_true_eq, integerOf]
  split_ifs <;> rfl

theorem intNumber_value (number : Int) : (intNumber number).intValue = number := by
  simp only [Number.intValue, intNumber, integerOf, digitsValue_decimalText, decide_eq_true_eq]
  split_ifs <;> omega

/-- An integer that is written is one that reads back. -/
theorem dumpsInt_reads {py : Interpreter} {number : Int} {text : Str}
    (written : dumpsInt py number = .ok text) :
    (intNumber number).text = text ∧ buildNumber py (intNumber number) = .ok (.int number) := by
  unfold dumpsInt at written
  split_ifs at written with limited
  cases written
  refine ⟨intNumber_text number, ?_⟩
  have integral : (intNumber number).isInt = true := rfl
  unfold buildNumber
  rw [if_pos integral]
  have within : ¬ (py.maxStrDigits ≠ 0 ∧
      py.maxStrDigits < (intNumber number).int.codes.length) := limited
  simp only [intOf, if_neg within, intNumber_value]
  rfl

/-- The token of a decimal that writes no fraction. -/
def wholeNumber (negative : Bool) (coefficient : Nat) (exponent : Int) : Number :=
  ⟨negative, integerOf (coefficient * 10 ^ exponent.toNat), none, none⟩

theorem wholeNumber_text {negative : Bool} {coefficient : Nat} {exponent : Int}
    (whole : 0 ≤ exponent) :
    (wholeNumber negative coefficient exponent).text = formatF negative coefficient exponent := by
  simp only [Number.text, wholeNumber, fracText, expText, List.append_nil, formatF, if_pos whole,
    integerOf]
  congr 1
  split_ifs with zero
  · rw [zero, Nat.zero_mul]
    rfl
  · exact decimalText_mul_pow (Nat.pos_of_ne_zero zero) exponent.toNat

theorem padded_split (digits : List Nat) (places : Nat) :
    ∃ whole frac, (List.replicate (places + 1 - digits.length) 0x30 ++ digits) = whole ++ frac ∧
      frac.length = places ∧
      whole = (List.replicate (places + 1 - digits.length) 0x30 ++ digits).take
        ((List.replicate (places + 1 - digits.length) 0x30 ++ digits).length - places) ∧
      frac = (List.replicate (places + 1 - digits.length) 0x30 ++ digits).drop
        ((List.replicate (places + 1 - digits.length) 0x30 ++ digits).length - places) := by
  refine ⟨_, _, (List.take_append_drop _ _).symm, ?_, rfl, rfl⟩
  simp only [List.length_drop, List.length_append, List.length_replicate]
  omega

/-- A decimal with a fraction is written as the token that means it. -/
theorem formatF_fraction {negative : Bool} {coefficient : Nat} {exponent : Int}
    (fraction : exponent < 0) :
    ∃ number : Number, number.text = formatF negative coefficient exponent ∧
      number.isInt = false ∧ number.minus = negative ∧ number.coefficient = coefficient ∧
        number.exponent = exponent := by
  obtain ⟨whole, frac, split, size, takes, drops⟩ :=
    padded_split (natText coefficient) (-exponent).toNat
  have digits : ∀ code ∈ whole ++ frac, isDigit code = true := by
    intro code member
    rw [← split, List.mem_append] at member
    rcases member with zero | digit
    · rw [List.eq_of_mem_replicate zero]
      rfl
    · exact decimalText_digits coefficient code digit
  have sizes := congrArg List.length split
  simp only [List.length_append, List.length_replicate, size] at sizes
  have wholeNonempty : whole ≠ [] := by
    intro empty
    rw [empty, List.length_nil] at sizes
    omega
  have fracNonempty : frac ≠ [] := by
    intro empty
    rw [empty, List.length_nil] at size
    omega
  have canonical : whole = [0x30] ∨ whole.head? ≠ some 0x30 := by
    by_cases short : (natText coefficient).length ≤ (-exponent).toNat
    · -- the padding supplies the whole part, one zero
      left
      have one : whole.length = 1 := by omega
      obtain ⟨code, rfl⟩ := List.length_eq_one_iff.mp one
      have padding : (-exponent).toNat + 1 - (natText coefficient).length =
          ((-exponent).toNat - (natText coefficient).length) + 1 := by omega
      rw [padding, List.replicate_succ, List.cons_append, List.cons_append] at split
      rw [(List.cons.inj split).1]
    · right
      have none : (-exponent).toNat + 1 - (natText coefficient).length = 0 := by omega
      rw [none, List.replicate_zero, List.nil_append] at split
      have positive : 0 < coefficient := by
        rcases Nat.eq_zero_or_pos coefficient with rfl | positive
        · have : (natText 0).length = 1 := rfl
          omega
        · exact positive
      obtain ⟨code, first, nonzero⟩ := decimalText_head positive
      obtain ⟨first', rest, rfl⟩ := List.exists_cons_of_ne_nil wholeNonempty
      have same : (natText coefficient).head? = some first' := by rw [split]; rfl
      rw [natText, first] at same
      rw [List.head?_cons]
      exact fun zero => nonzero ((Option.some.inj same).trans (Option.some.inj zero))
  refine ⟨⟨negative, ⟨⟨whole, wholeNonempty, fun code member =>
    digits code (List.mem_append_left _ member)⟩, canonical⟩, some ⟨frac, fracNonempty,
      fun code member => digits code (List.mem_append_right _ member)⟩, none⟩, ?_, rfl, rfl, ?_, ?_⟩
  · simp only [Number.text, fracText, expText, List.append_nil, formatF,
      if_neg (not_le.mpr fraction)]
    rw [List.append_assoc, ← takes, ← drops]
  · simp only [Number.coefficient, fracCodes]
    rw [← split, digitsValue_append, digitsValue_replicate, Nat.zero_mul, Nat.zero_add]
    exact digitsValue_decimalText coefficient
  · simp only [Number.exponent, expValue, fracCodes, size]
    omega

/-- What a leaf needs to be read back, beyond being written: a string is of scalar values, a
decimal that writes an integer keeps within the digit limit, and one that writes a fraction is
one the decimal module builds, as it built it for the caller. -/
def Restorable (py : Interpreter) : Param → Prop
  | .str text => ∀ code ∈ text, Utf8.IsScalar code
  | .decimal (.finite _ coefficient exponent) =>
    if 0 ≤ exponent then
      py.maxStrDigits = 0 ∨ (formatF false coefficient exponent).length ≤ py.maxStrDigits
    else py.decimalBuilds coefficient exponent = true
  | _ => True

/-- A decimal that is written is a number token, and reads back as an equal number. -/
theorem decimalJson_reads {py : Interpreter} {number : Decimal} {text : Str}
    (written : decimalJson py number = .ok text) :
    ∃ token : Number, token.text = text ∧ (Restorable py (.decimal number) →
      ∃ value, buildNumber py token = .ok value ∧ value.toRat = number.toRat ∧
        value.toRat ≠ none) := by
  cases number with
  | finite negative coefficient exponent =>
    simp only [decimalJson] at written
    split_ifs at written with limited
    cases written
    by_cases whole : 0 ≤ exponent
    · refine ⟨wholeNumber negative coefficient exponent, wholeNumber_text whole, fun within => ?_⟩
      simp only [Restorable, if_pos whole] at within
      have unlimited : ¬ (py.maxStrDigits ≠ 0 ∧ py.maxStrDigits <
          (wholeNumber negative coefficient exponent).int.codes.length) := by
        have same : (wholeNumber negative coefficient exponent).int.codes.length =
            (formatF false coefficient exponent).length := by
          rw [← wholeNumber_text whole]
          simp [Number.text, wholeNumber, fracText, expText]
        rw [same]
        omega
      refine ⟨.int (wholeNumber negative coefficient exponent).intValue, ?_, ?_, by simp [Json.toRat]⟩
      · simp only [buildNumber, intOf, if_neg unlimited]
        rfl
      · have power : (10 : ℚ) ^ exponent = 10 ^ exponent.toNat := by
          rw [← zpow_natCast, Int.toNat_of_nonneg whole]
        simp only [Json.toRat, Decimal.toRat, Number.intValue, wholeNumber, integerOf,
          digitsValue_decimalText, power, Option.some.injEq]
        cases negative <;> simp
    · obtain ⟨token, tokenText, fraction, minus, coefficient', exponent'⟩ :=
        @formatF_fraction negative coefficient exponent (not_le.mp whole)
      refine ⟨token, tokenText, fun builds => ?_⟩
      simp only [Restorable, if_neg whole] at builds
      refine ⟨.decimal (.finite negative coefficient exponent), ?_, rfl, by
        simp [Json.toRat, Decimal.toRat]⟩
      have built : decimalOf py token = .ok (.finite negative coefficient exponent) := by
        rw [decimalOf, coefficient', exponent', minus, if_pos builds]
      simp only [buildNumber, fraction, jsonNumber, built]
      simp only [bind, Except.bind, Decimal.isFinite, if_neg limited]
      rfl
  | infinity negative => cases written
  | nan => cases written

/-! ### Strings -/

theorem isHex_hexDigit {digit : Nat} (small : digit < 16) : isHex (hexDigit digit) = true := by
  interval_cases digit <;> rfl

theorem hexValue_hexDigit {digit : Nat} (small : digit < 16) : hexValue (hexDigit digit) = digit := by
  interval_cases digit <;> rfl

/-- A code unit as the piece its escape is. -/
def unitPiece (unit : Nat) : Piece :=
  .hex (hexDigit (unit / 0x1000 % 16)) (hexDigit (unit / 0x100 % 16)) (hexDigit (unit / 0x10 % 16))
    (hexDigit (unit % 16))
    ⟨isHex_hexDigit (Nat.mod_lt _ (by decide)), isHex_hexDigit (Nat.mod_lt _ (by decide)),
      isHex_hexDigit (Nat.mod_lt _ (by decide)), isHex_hexDigit (Nat.mod_lt _ (by decide))⟩

theorem unitPiece_code {unit : Nat} (small : unit < 0x10000) :
    (unitPiece unit).code = (unit, true) := by
  simp only [unitPiece, Piece.code, hexCode, hexValue_hexDigit (Nat.mod_lt _ (by decide : 0 < 16)),
    Prod.mk.injEq, and_true]
  omega

/-- A code that joins nothing after it. -/
theorem joinHalves_cons {code : Nat} {coded : Bool} (rest : List (Nat × Bool))
    (alone : coded = false ∨ isHigh code = false) :
    joinHalves ((code, coded) :: rest) = code :: joinHalves rest := by
  have apart : (coded && isHigh code) = false := by
    rcases alone with plain | low
    · rw [plain, Bool.false_and]
    · rw [low, Bool.and_false]
  cases rest with
  | nil => rfl
  | cons next rest =>
    obtain ⟨next, nextCoded⟩ := next
    rw [joinHalves, apart, Bool.false_and, Bool.false_and, if_neg Bool.false_ne_true]

/-- The two escapes of a code point past the first plane join into it. -/
theorem joinHalves_pair {code : Nat} (wide : 0x10000 ≤ code) (bounded : code < 0x110000)
    (rest : List (Nat × Bool)) :
    joinHalves ((0xD800 + (code - 0x10000) / 0x400 % 0x400, true) ::
      (0xDC00 + (code - 0x10000) % 0x400, true) :: rest) = code :: joinHalves rest := by
  have high : isHigh (0xD800 + (code - 0x10000) / 0x400 % 0x400) = true := by
    simp only [isHigh, Bool.and_eq_true, decide_eq_true_eq]
    omega
  have low : isLow (0xDC00 + (code - 0x10000) % 0x400) = true := by
    simp only [isLow, Bool.and_eq_true, decide_eq_true_eq]
    omega
  have value : joined (0xD800 + (code - 0x10000) / 0x400 % 0x400)
      (0xDC00 + (code - 0x10000) % 0x400) = code := by
    unfold joined
    omega
  rw [joinHalves, high, low]
  simp only [Bool.and_self, if_true, value]

/-- What is written of one character, as pieces: they are in printable ASCII, and mean the
character whatever follows them. -/
theorem escapeCode_pieces (code : Nat) :
    ∃ pieces : List Piece, content pieces = escapeCode code ∧
      (Utf8.IsScalar code → ∀ rest, joinHalves (pieces.map Piece.code ++ rest) =
        code :: joinHalves rest) := by
  have short (escape : Nat) (ok : isEscape escape = true) (value : escapeValue escape = code) :
      ∃ pieces : List Piece, content pieces = [0x5C, escape] ∧
        (Utf8.IsScalar code → ∀ rest, joinHalves (pieces.map Piece.code ++ rest) =
          code :: joinHalves rest) := by
    refine ⟨[.escape escape ok], rfl, fun _ rest => ?_⟩
    rw [List.map_singleton, List.singleton_append, Piece.code, value]
    exact joinHalves_cons rest (.inl rfl)
  unfold escapeCode
  split_ifs with quote backslash newline carriage tab feed backspace printable narrow
  · exact short 0x22 rfl quote.symm
  · exact short 0x5C rfl backslash.symm
  · exact short 0x6E rfl newline.symm
  · exact short 0x72 rfl carriage.symm
  · exact short 0x74 rfl tab.symm
  · exact short 0x66 rfl feed.symm
  · exact short 0x62 rfl backspace.symm
  · have plain : isPlain code = true := by
      simp only [isPlain, Bool.and_eq_true, decide_eq_true_eq, bne_iff_ne]
      exact ⟨⟨printable.1, quote⟩, backslash⟩
    exact ⟨[.plain code plain], rfl, fun _ rest => joinHalves_cons rest (.inl rfl)⟩
  · refine ⟨[unitPiece code], rfl, fun scalar rest => ?_⟩
    rw [List.map_singleton, List.singleton_append, unitPiece_code narrow]
    refine joinHalves_cons rest (.inr ?_)
    have := scalar.2.resolve_left Bool.false_ne_true
    simp only [isHigh, Bool.and_eq_false_iff, decide_eq_false_iff_not]
    omega
  · refine ⟨[unitPiece (0xD800 + (code - 0x10000) / 0x400 % 0x400),
      unitPiece (0xDC00 + (code - 0x10000) % 0x400)], rfl, fun scalar rest => ?_⟩
    rw [List.map_cons, List.map_singleton, List.cons_append, List.singleton_append,
      unitPiece_code (by omega), unitPiece_code (by omega)]
    exact joinHalves_pair (by omega) scalar.1 rest

/-- A string is written as a string token that means it. -/
theorem dumpsStr_pieces (text : Str) :
    ∃ pieces : List Piece, quoted pieces = dumpsStr text ∧
      ((∀ code ∈ text, Utf8.IsScalar code) → stringValue pieces = text) := by
  have pieces : ∃ pieces : List Piece, content pieces = text.flatMap escapeCode ∧
      ((∀ code ∈ text, Utf8.IsScalar code) → stringValue pieces = text) := by
    induction text with
    | nil => exact ⟨[], rfl, fun _ => rfl⟩
    | cons code rest inductionHypothesis =>
      obtain ⟨first, firstText, firstValue⟩ := escapeCode_pieces code
      obtain ⟨others, othersText, othersValue⟩ := inductionHypothesis
      refine ⟨first ++ others, ?_, fun scalars => ?_⟩
      · rw [content_append, firstText, othersText, List.flatMap_cons]
      · rw [stringValue, List.map_append, firstValue (scalars code List.mem_cons_self)]
        exact congrArg (code :: ·) (othersValue fun other member =>
          scalars other (List.mem_cons_of_mem _ member))
  obtain ⟨pieces, text', value⟩ := pieces
  exact ⟨pieces, by rw [quoted, text', dumpsStr], value⟩

/-! ### ASCII -/

/-- A text of printable ASCII alone. -/
def IsPrintable (text : Str) : Prop :=
  ∀ code ∈ text, 0x20 ≤ code ∧ code < 0x7F

theorem isPrintable_append {first second : Str} :
    IsPrintable (first ++ second) ↔ IsPrintable first ∧ IsPrintable second := by
  exact List.forall_mem_append

theorem isPrintable_digits {text : Str} (digits : ∀ code ∈ text, isDigit code = true) :
    IsPrintable text := by
  intro code member
  have := digits code member
  simp only [isDigit, Bool.and_eq_true, decide_eq_true_eq] at this
  omega

theorem isPrintable_number (number : Number) : IsPrintable number.text := by
  have minus : IsPrintable (if number.minus then [0x2D] else []) := by
    cases number.minus <;> simp [IsPrintable]
  have frac : IsPrintable (fracText number.frac) := by
    cases number.frac with
    | none => simp [IsPrintable, fracText]
    | some digits =>
      refine (@isPrintable_append [0x2E] _).mpr ⟨by simp [IsPrintable], ?_⟩
      exact isPrintable_digits digits.digits
  have exp : IsPrintable (expText number.exp) := by
    cases number.exp with
    | none => simp [IsPrintable, expText]
    | some exponent =>
      have mark : IsPrintable [exponent.mark] := by
        rcases exponent.marked with same | same <;> simp [IsPrintable, same]
      have sign : IsPrintable exponent.sign.toList := by
        rcases exponent.signed with same | same | same <;> simp [IsPrintable, same]
      exact isPrintable_append.mpr ⟨mark, isPrintable_append.mpr
        ⟨sign, isPrintable_digits exponent.digits.digits⟩⟩
  exact isPrintable_append.mpr ⟨isPrintable_append.mpr ⟨isPrintable_append.mpr
    ⟨minus, isPrintable_digits number.int.digits⟩, frac⟩, exp⟩

theorem hexDigit_ascii {digit : Nat} (small : digit < 16) :
    0x20 ≤ hexDigit digit ∧ hexDigit digit < 0x7F := by
  unfold hexDigit
  split_ifs <;> omega

theorem isPrintable_escapeUnit (unit : Nat) : IsPrintable (escapeUnit unit) := by
  simp only [IsPrintable, escapeUnit, List.mem_cons, List.not_mem_nil, or_false]
  rintro code (rfl | rfl | rfl | rfl | rfl | rfl)
  · decide
  · decide
  all_goals exact hexDigit_ascii (Nat.mod_lt _ (by decide))

theorem isPrintable_dumpsStr (text : Str) : IsPrintable (dumpsStr text) := by
  have one (code : Nat) : IsPrintable (escapeCode code) := by
    unfold escapeCode
    split_ifs with _ _ _ _ _ _ _ printable
    any_goals simp only [IsPrintable, List.mem_cons, List.not_mem_nil, or_false, forall_eq_or_imp,
      forall_eq]; omega
    · exact isPrintable_escapeUnit code
    · exact isPrintable_append.mpr ⟨isPrintable_escapeUnit _, isPrintable_escapeUnit _⟩
  intro code member
  simp only [dumpsStr, List.mem_cons, List.mem_append, List.mem_flatMap, List.not_mem_nil,
    or_false] at member
  rcases member with rfl | ⟨source, _, inside⟩ | rfl
  · decide
  · exact one source code inside
  · decide

/-! ### Containers -/

def noPad : Blank := ⟨[], by simp⟩

def onePad : Blank := ⟨[0x20], by simp [isBlank]⟩

/-- A slot as the writer writes one: its head, by the white space it begins with, and its
value. -/
structure Slot (kind : Kind) where
  head : Blank → Head kind
  value : Value
  spaced : ∀ pad, (head pad).text = pad.codes ++ (head noPad).text
  named : ∀ pad, headName (head pad) = headName (head noPad)

def Slot.text {kind : Kind} (slot : Slot kind) : Str :=
  (slot.head noPad).text ++ slot.value.text

def Slot.name {kind : Kind} (slot : Slot kind) : Str :=
  headName (slot.head noPad)

def slotsTail {kind : Kind} : List (Slot kind) → Tail kind
  | [] => .close noPad
  | slot :: rest => .more noPad (slot.head onePad) slot.value (slotsTail rest)

/-- The tree of a container the writer joins. -/
def containerTree (kind : Kind) : List (Slot kind) → Value
  | [] => .empty kind noPad
  | slot :: rest => .full kind (slot.head noPad) slot.value (slotsTail rest)

theorem slotsTail_text {kind : Kind} (slot : Slot kind) (rest : List (Slot kind)) :
    slot.text ++ (slotsTail rest).text =
      commaJoined ((slot :: rest).map Slot.text) ++ [kind.closer] := by
  induction rest generalizing slot with
  | nil => rfl
  | cons next rest inductionHypothesis =>
    have after := inductionHypothesis next
    simp only [List.map_cons, commaJoined, slotsTail, Tail.text, next.spaced onePad] at after ⊢
    have comma : str ", " = [0x2C, 0x20] := rfl
    rw [comma, List.append_assoc, List.append_assoc, List.append_assoc, ← after]
    simp [Slot.text, noPad, onePad]

theorem containerTree_text (kind : Kind) (slots : List (Slot kind)) :
    (containerTree kind slots).text =
      kind.opener :: (commaJoined (slots.map Slot.text) ++ [kind.closer]) := by
  cases slots with
  | nil => rfl
  | cons slot rest =>
    rw [← slotsTail_text]
    rfl

theorem slotsTail_depth {kind : Kind} {slots : List (Slot kind)} {bound : Nat}
    (shallow : ∀ slot ∈ slots, slot.value.depth ≤ bound) : (slotsTail slots).depth ≤ bound := by
  induction slots with
  | nil => exact Nat.zero_le _
  | cons slot rest inductionHypothesis =>
    exact max_le (shallow slot List.mem_cons_self)
      (inductionHypothesis fun other member => shallow other (List.mem_cons_of_mem _ member))

theorem containerTree_depth {kind : Kind} {slots : List (Slot kind)} {bound : Nat}
    (shallow : ∀ slot ∈ slots, slot.value.depth ≤ bound) :
    (containerTree kind slots).depth ≤ bound + 1 := by
  cases slots with
  | nil => simp [containerTree, Value.depth]
  | cons slot rest =>
    exact Nat.succ_le_succ (max_le (shallow slot List.mem_cons_self)
      (slotsTail_depth fun other member => shallow other (List.mem_cons_of_mem _ member)))

theorem slotsTail_build {py : Interpreter} {kind : Kind} {budget : Nat} {slots : List (Slot kind)}
    {answers : List Json}
    (each : List.Forall₂ (fun slot answer => build py slot.value budget = .ok answer) slots
      answers) :
    buildTail py (slotsTail slots) budget = .ok ((slots.map Slot.name).zip answers) := by
  induction each with
  | nil => rfl
  | @cons slot answer _ _ first _ inductionHypothesis =>
    simp only [slotsTail, buildTail, first, inductionHypothesis, bind, Except.bind, pure,
      Except.pure, slot.named onePad]
    rfl

theorem containerTree_build {py : Interpreter} {kind : Kind} {budget : Nat}
    {slots : List (Slot kind)} {answers : List Json}
    (each : List.Forall₂ (fun slot answer => build py slot.value budget = .ok answer) slots
      answers) :
    build py (containerTree kind slots) (budget + 1) =
      .ok (containerValue kind ((slots.map Slot.name).zip answers)) := by
  cases each with
  | nil => rfl
  | cons first others =>
    simp only [containerTree, build, first, slotsTail_build others, bind, Except.bind, pure,
      Except.pure]
    rfl

/-- An element of an array. -/
def itemSlot (value : Value) : Slot .array where
  head := .item
  value := value
  spaced := fun pad => by simp [Head.text, noPad]
  named := fun _ => rfl

/-- A member of an object. -/
def memberSlot (name : List Piece) (value : Value) : Slot .object where
  head := fun pad => .member pad name noPad onePad
  value := value
  spaced := fun pad => by simp [Head.text, noPad]
  named := fun _ => rfl

/-! ### What is written is read back -/

/-- A text is JSON that means a value, and reads back as it where the value can be restored. -/
def Written (py : Interpreter) (frames : Nat) (value : Param) (text : Str) : Prop :=
  ∃ tree : Value, tree.text = text ∧ tree.depth ≤ frames ∧ IsPrintable text ∧
    (value.Every (Restorable py) → ∃ read, build py tree frames = .ok read ∧ Equal value read)

/-- A member of an object as the writer writes one. -/
def WrittenMember (py : Interpreter) (frames : Nat) (member : Str × Param) (text : Str) : Prop :=
  ∃ itemText, text = dumpsStr member.1 ++ str ": " ++ itemText ∧
    Written py frames member.2 itemText

theorem isPrintable_commaJoined {texts : List Str} (each : ∀ text ∈ texts, IsPrintable text) :
    IsPrintable (commaJoined texts) := by
  induction texts with
  | nil => simp [IsPrintable, commaJoined]
  | cons text rest inductionHypothesis =>
    cases rest with
    | nil => exact each text List.mem_cons_self
    | cons next rest =>
      have comma : IsPrintable (str ", ") := by
        unfold IsPrintable
        decide
      exact isPrintable_append.mpr ⟨isPrintable_append.mpr ⟨each text List.mem_cons_self, comma⟩,
        inductionHypothesis fun other member => each other (List.mem_cons_of_mem _ member)⟩

theorem isPrintable_container (kind : Kind) {texts : List Str}
    (each : ∀ text ∈ texts, IsPrintable text) :
    IsPrintable (kind.opener :: (commaJoined texts ++ [kind.closer])) := by
  have opener : IsPrintable [kind.opener] := by cases kind <;> simp [IsPrintable, Kind.opener]
  have closer : IsPrintable [kind.closer] := by cases kind <;> simp [IsPrintable, Kind.closer]
  exact isPrintable_append.mpr ⟨opener, isPrintable_append.mpr
    ⟨isPrintable_commaJoined each, closer⟩⟩

theorem written_slots {py : Interpreter} {frames : Nat} {values : List Param} {texts : List Str}
    (all : List.Forall₂ (Written py frames) values texts) :
    ∃ slots : List (Slot .array), slots.map Slot.text = texts ∧
      (∀ slot ∈ slots, slot.value.depth ≤ frames) ∧ (∀ text ∈ texts, IsPrintable text) ∧
      (EveryItem (Restorable py) values → ∃ answers,
        List.Forall₂ (fun slot answer => build py slot.value frames = .ok answer) slots answers ∧
          List.Forall₂ Equal values answers) := by
  induction all with
  | nil => exact ⟨[], rfl, by simp, by simp, fun _ => ⟨[], .nil, .nil⟩⟩
  | cons first _ inductionHypothesis =>
    obtain ⟨tree, rfl, shallow, printable, reads⟩ := first
    obtain ⟨slots, rfl, shallows, printables, readsRest⟩ := inductionHypothesis
    refine ⟨itemSlot tree :: slots, rfl, ?_, ?_, ?_⟩
    · exact List.forall_mem_cons.mpr ⟨shallow, shallows⟩
    · exact List.forall_mem_cons.mpr ⟨printable, printables⟩
    · rintro ⟨restorable, restorables⟩
      obtain ⟨read, built, same⟩ := reads restorable
      obtain ⟨answers, builts, sames⟩ := readsRest restorables
      exact ⟨read :: answers, .cons built builts, .cons same sames⟩

theorem written_memberSlots {py : Interpreter} {frames : Nat} {values : List (Str × Param)}
    {texts : List Str} (all : List.Forall₂ (WrittenMember py frames) values texts) :
    ∃ slots : List (Slot .object), slots.map Slot.text = texts ∧
      (∀ slot ∈ slots, slot.value.depth ≤ frames) ∧ (∀ text ∈ texts, IsPrintable text) ∧
      (EveryMember (Restorable py) values → ∃ answers,
        List.Forall₂ (fun slot answer => build py slot.value frames = .ok answer) slots answers ∧
          List.Forall₂ Equal (values.map Prod.snd) answers ∧
          slots.map Slot.name = values.map Prod.fst) := by
  induction all with
  | nil => exact ⟨[], rfl, by simp, by simp, fun _ => ⟨[], .nil, .nil, rfl⟩⟩
  | @cons member _ _ _ first _ inductionHypothesis =>
    obtain ⟨itemText, rfl, tree, rfl, shallow, printable, reads⟩ := first
    obtain ⟨slots, rfl, shallows, printables, readsRest⟩ := inductionHypothesis
    obtain ⟨pieces, piecesText, value⟩ := dumpsStr_pieces member.1
    have colon : str ": " = [0x3A, 0x20] := rfl
    refine ⟨memberSlot pieces tree :: slots, ?_, ?_, ?_, ?_⟩
    · simp [Slot.text, memberSlot, Head.text, noPad, onePad, piecesText, colon]
    · exact List.forall_mem_cons.mpr ⟨shallow, shallows⟩
    · refine List.forall_mem_cons.mpr ⟨?_, printables⟩
      refine isPrintable_append.mpr ⟨isPrintable_append.mpr
        ⟨isPrintable_dumpsStr member.1, ?_⟩, printable⟩
      unfold IsPrintable
      decide
    · rintro ⟨scalars, restorable, restorables⟩
      obtain ⟨read, built, same⟩ := reads restorable
      obtain ⟨answers, builts, sames, names⟩ := readsRest restorables
      refine ⟨read :: answers, .cons built builts, .cons same sames, ?_⟩
      rw [List.map_cons, List.map_cons, names]
      exact congrArg (· :: _) (value scalars)

theorem written_array {py : Interpreter} {frames : Nat} {values : List Param} {texts : List Str}
    (all : List.Forall₂ (Written py frames) values texts) :
    Written py (frames + 1) (.list values) (str "[" ++ commaJoined texts ++ str "]") ∧
      Written py (frames + 1) (.tuple values) (str "[" ++ commaJoined texts ++ str "]") := by
  obtain ⟨slots, rfl, shallow, printable, reads⟩ := written_slots all
  have text : (containerTree .array slots).text =
      str "[" ++ commaJoined (slots.map Slot.text) ++ str "]" := containerTree_text .array slots
  have sound (restorable : EveryItem (Restorable py) values) : ∃ answers,
      build py (containerTree .array slots) (frames + 1) = .ok (.array answers) ∧
        List.Forall₂ Equal values answers := by
    obtain ⟨answers, built, same⟩ := reads restorable
    refine ⟨answers, ?_, same⟩
    rw [containerTree_build built, containerValue,
      List.map_snd_zip (by rw [List.length_map, built.length_eq])]
  have printed := isPrintable_container .array printable
  refine ⟨⟨containerTree .array slots, text, containerTree_depth shallow, printed, ?_⟩,
    ⟨containerTree .array slots, text, containerTree_depth shallow, printed, ?_⟩⟩
  · intro restorable
    obtain ⟨answers, built, same⟩ := sound restorable
    exact ⟨.array answers, built, .list values answers same⟩
  · intro restorable
    obtain ⟨answers, built, same⟩ := sound restorable
    exact ⟨.array answers, built, .tuple values answers same⟩

theorem written_object {py : Interpreter} {frames : Nat} {values : List (Str × Param)}
    {texts : List Str} (all : List.Forall₂ (WrittenMember py frames) values texts)
    (distinct : (values.map Prod.fst).Nodup) :
    Written py (frames + 1) (.dict values) (str "\x7b" ++ commaJoined texts ++ str "\x7d") := by
  obtain ⟨slots, rfl, shallow, printable, reads⟩ := written_memberSlots all
  refine ⟨containerTree .object slots, containerTree_text .object slots,
    containerTree_depth shallow, isPrintable_container .object printable, fun restorable => ?_⟩
  obtain ⟨answers, built, same, names⟩ := reads restorable
  have sizes : slots.length = answers.length := built.length_eq
  have keys : ((slots.map Slot.name).zip answers).map Prod.fst = values.map Prod.fst := by
    rw [List.map_fst_zip (by rw [List.length_map, sizes]), names]
  have held : ((slots.map Slot.name).zip answers).map Prod.snd = answers :=
    List.map_snd_zip (by rw [List.length_map, sizes])
  refine ⟨_, containerTree_build built, ?_⟩
  rw [containerValue, Dict.ofPairs_of_nodup (keys ▸ distinct)]
  exact .dict values _ keys.symm (held.symm ▸ same)

theorem mapM_eq_some {α β : Type} {f : α → Option β} {items : List α} {answers : List β}
    (collected : items.mapM f = some answers) :
    List.Forall₂ (fun item answer => f item = some answer) items answers := by
  induction items generalizing answers with
  | nil =>
    cases collected
    exact .nil
  | cons item rest inductionHypothesis =>
    simp only [List.mapM_cons, Option.bind_eq_bind, Option.bind_eq_some_iff, Option.pure_def,
      Option.some.injEq] at collected
    obtain ⟨answer, first, others, last, rfl⟩ := collected
    exact .cons first (inductionHypothesis last)

/-- The writer's text is the text of a tree that builds the value. -/
theorem requestJson_written (py : Interpreter) (heap : Heap) (frames : Nat) :
    ∀ (depth : Nat) (root : Obj) (value : Param) (text : Str), heap.unfold depth root = some value →
      requestJson py heap frames root = .ok text → Written py frames value text := by
  induction frames with
  | zero => rintro _ _ _ _ _ ⟨⟩
  | succ frames inductionHypothesis =>
    intro depth root value text unfolds written
    cases depth with
    | zero => cases unfolds
    | succ depth =>
      have literal (which : Literal) (leaf : Param) (same : Equal leaf (literalValue which))
          (printable : IsPrintable which.text) : Written py (frames + 1) leaf which.text :=
        ⟨.literal which, rfl, Nat.zero_le _, printable, fun _ => ⟨_, rfl, same⟩⟩
      have items (refs : List Ref) (values : List Param) (texts : List Str)
          (unfolded : refs.mapM (fun item => heap.unfold depth (heap.object item)) = some values)
          (collected : refs.mapM (fun item => requestJson py heap frames (heap.object item)) =
            .ok texts) : List.Forall₂ (Written py frames) values texts := by
        have first := mapM_eq_some unfolded
        have second := mapM_eq_ok.mp collected
        clear unfolded collected
        induction first generalizing texts with
        | nil =>
          cases second
          exact .nil
        | cons head _ rest =>
          cases second with
          | cons head' second =>
            exact .cons (inductionHypothesis _ _ _ _ head head') (rest _ second)
      cases root with
      | none =>
        cases unfolds
        cases written
        exact literal .null .none .none (by unfold IsPrintable; decide)
      | bool flag =>
        cases unfolds
        cases flag <;> cases written
        · exact literal .false (.bool false) (.bool false) (by unfold IsPrintable; decide)
        · exact literal .true (.bool true) (.bool true) (by unfold IsPrintable; decide)
      | int number =>
        cases unfolds
        obtain ⟨rfl, built⟩ := dumpsInt_reads written
        exact ⟨.number (intNumber number), rfl, Nat.zero_le _, isPrintable_number _,
          fun _ => ⟨_, built, .int number⟩⟩
      | str content =>
        cases unfolds
        cases written
        obtain ⟨pieces, shape, means⟩ := dumpsStr_pieces content
        refine ⟨.string pieces, shape, Nat.zero_le _, isPrintable_dumpsStr content,
          fun restorable => ⟨_, rfl, ?_⟩⟩
        rw [means restorable]
        exact .str content
      | decimal number =>
        cases unfolds
        obtain ⟨token, rfl, reads⟩ := decimalJson_reads written
        refine ⟨.number token, rfl, Nat.zero_le _, isPrintable_number _, fun restorable => ?_⟩
        obtain ⟨read, built, same, finite⟩ := reads restorable
        exact ⟨read, built, .decimal number read same finite⟩
      | dict members =>
        simp only [Heap.unfold, Option.bind_eq_bind, Option.bind_eq_some_iff] at unfolds
        obtain ⟨values, unfolded, once⟩ := unfolds
        split_ifs at once with distinct
        cases once
        obtain ⟨texts, collected, same⟩ := bind_eq_ok written
        cases same
        refine written_object ?_ distinct
        have first := mapM_eq_some unfolded
        have second := mapM_eq_ok.mp collected
        clear unfolded collected distinct written
        induction first generalizing texts with
        | nil =>
          cases second
          exact .nil
        | @cons member _ _ _ head _ rest =>
          cases second with
          | cons head' second =>
            refine .cons ?_ (rest _ second)
            cases named : heap.object member.1 with
            | str name =>
              simp only [named, Option.map_eq_some_iff] at head
              obtain ⟨item, itemUnfolds, rfl⟩ := head
              simp only [named] at head'
              obtain ⟨itemText, itemWritten, shape⟩ := bind_eq_ok head'
              cases shape
              exact ⟨itemText, rfl, inductionHypothesis _ _ _ _ itemUnfolds itemWritten⟩
            | _ => simp [named] at head
      | list refs =>
        obtain ⟨values, unfolded, rfl⟩ := Option.map_eq_some_iff.mp unfolds
        obtain ⟨texts, collected, same⟩ := bind_eq_ok written
        cases same
        exact (written_array (items refs values texts unfolded collected)).1
      | tuple refs =>
        obtain ⟨values, unfolded, rfl⟩ := Option.map_eq_some_iff.mp unfolds
        obtain ⟨texts, collected, same⟩ := bind_eq_ok written
        cases same
        exact (written_array (items refs values texts unfolded collected)).2
      | _ => cases unfolds

/-! ### The reader -/

/-- A text of printable ASCII is read as UTF-8. -/
theorem detectEncoding_printable {text : Str} (printable : IsPrintable text) :
    detectEncoding text = .utf8 := by
  have solid (code : Nat) (member : code ∈ text) : code ≠ 0 ∧ code < 0x7F := by
    have := printable code member
    omega
  have unmarked (first : Nat) (rest : List Nat) (mark : ¬ (first ≠ 0 ∧ first < 0x7F)) :
      ¬ first :: rest <+: text := by
    rintro ⟨after, rfl⟩
    exact mark (solid first (by simp))
  unfold detectEncoding
  rw [if_neg (not_or.mpr ⟨unmarked _ _ (by decide), unmarked _ _ (by decide)⟩),
    if_neg (not_or.mpr ⟨unmarked _ _ (by decide), unmarked _ _ (by decide)⟩),
    if_neg (unmarked _ _ (by decide))]
  split
  · rw [if_neg (solid _ (by simp)).1, if_neg (solid _ (by simp)).1]
  · rw [if_neg (solid _ (by simp)).1, if_neg (solid _ (by simp)).1]
  · rfl

/-- What was written reads back, where the parser may recurse as deep as the writer did. -/
theorem Written.reads {py : Interpreter} {frames : Nat} {value : Param} {text : Str}
    (written : Written py frames value text) (restorable : value.Every (Restorable py))
    (room : frames ≤ py.nesting) :
    ∃ read, loads py (Utf8.encode text) = .ok read ∧ Equal value read := by
  obtain ⟨tree, rfl, shallow, printable, reads⟩ := written
  obtain ⟨read, built, same⟩ := reads restorable
  have ascii (code : Nat) (member : code ∈ tree.text) : code < 0x80 := by
    have := printable code member
    omega
  have decoded : Utf8.decode true tree.text = some tree.text :=
    Utf8.decode_eq_some_iff.mpr ⟨(Utf8.encode_ascii ascii).symm, fun code member =>
      ⟨by have := ascii code member; omega, .inl rfl⟩⟩
  have document := decodeDocument_text py ⟨noPad, tree, noPad⟩
  simp only [Document.text, noPad, List.nil_append, List.append_nil] at document
  refine ⟨read, ?_, same⟩
  simp only [loads, Utf8.encode_ascii ascii, detectEncoding_printable printable, decodeAs, decoded]
  rw [document]
  exact build_budget py tree built (shallow.trans room)

/-! ### What is accepted is written -/

/-- The objects a value of the caller's is made of, itself included. -/
inductive Heap.Holds (heap : Heap) : Obj → Obj → Prop
  | itself (value : Obj) : heap.Holds value value
  | list {items : List Ref} {item : Ref} {value : Obj} (member : item ∈ items)
    (inside : heap.Holds (heap.object item) value) : heap.Holds (.list items) value
  | tuple {items : List Ref} {item : Ref} {value : Obj} (member : item ∈ items)
    (inside : heap.Holds (heap.object item) value) : heap.Holds (.tuple items) value
  | dict {members : List (Ref × Ref)} {member : Ref × Ref} {value : Obj} (inside : member ∈ members)
    (held : heap.Holds (heap.object member.2) value) : heap.Holds (.dict members) value

end BitcoinCoreRpc
