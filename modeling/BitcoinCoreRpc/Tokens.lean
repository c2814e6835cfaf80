/-
This file matches the tokens of the grammar at the front of a text, as a library.

A matcher takes the longest token it can and answers it with what is left, the way
an anchored regular expression does. Each one is sound, the token and the rest
being the text, and finds the token the text holds wherever what follows could not
have carried it on.
-/

import BitcoinCoreRpc.Grammar

namespace JsonText

/-! ### White space -/

/-- The white space a text begins with. -/
def blankPrefix (text : List Nat) : Blank :=
  ⟨text.takeWhile isBlank, fun _ member => List.mem_takeWhile_imp member⟩

/-- A text past the white space it begins with. -/
def dropBlank (text : List Nat) : List Nat :=
  text.dropWhile isBlank

theorem blankPrefix_append (text : List Nat) :
    (blankPrefix text).codes ++ dropBlank text = text :=
  List.takeWhile_append_dropWhile

/-- What is left past the white space is behind white space. -/
theorem exists_blank {text rest : List Nat} (split : dropBlank text = rest) :
    ∃ pad : Blank, text = pad.codes ++ rest :=
  ⟨blankPrefix text, by rw [← split, blankPrefix_append]⟩

/-- A text that does not begin with white space. -/
def NoBlank (text : List Nat) : Prop :=
  ∀ code ∈ text.head?, isBlank code = false

theorem noBlank_nil : NoBlank [] := by simp [NoBlank]

theorem noBlank_cons {code : Nat} {rest : List Nat} (solid : isBlank code = false) :
    NoBlank (code :: rest) := by simpa [NoBlank] using solid

theorem noBlank_dropBlank (text : List Nat) : NoBlank (dropBlank text) := by
  intro code first
  have := List.head?_dropWhile_not isBlank text
  rw [dropBlank] at first
  rw [Option.mem_def.mp first] at this
  simpa using this

theorem dropBlank_append {text : List Nat} (pad : Blank) (solid : NoBlank text) :
    dropBlank (pad.codes ++ text) = text := by
  rw [dropBlank, List.dropWhile_append_of_pos pad.blank]
  cases text with
  | nil => rfl
  | cons code rest =>
    rw [List.dropWhile_cons_of_neg]
    simpa using solid code rfl

/-- Two ways of splitting white space off a text are one. -/
theorem blank_unique {first second : Blank} {text other : List Nat} (solid : NoBlank text)
    (solid' : NoBlank other) (same : first.codes ++ text = second.codes ++ other) :
    first.codes = second.codes ∧ text = other := by
  have rest : text = other := by
    rw [← dropBlank_append first solid, same, dropBlank_append second solid']
  subst rest
  exact ⟨List.append_cancel_right same, rfl⟩

/-! ### Numbers -/

/-- The longest run of digits a text begins with, if there is one. -/
def matchDigits (text : List Nat) : Option (Digits × List Nat) :=
  if nonempty : text.takeWhile isDigit ≠ [] then
    some (⟨text.takeWhile isDigit, nonempty, fun _ member => List.mem_takeWhile_imp member⟩,
      text.dropWhile isDigit)
  else none

/-- `0` alone, or a run of digits that begins with another. -/
def matchInteger (text : List Nat) : Option (Integer × List Nat) :=
  if text.head? = some 0x30 then
    some (⟨⟨[0x30], by simp, by simp [isDigit]⟩, .inl rfl⟩, text.tail)
  else
    match matchDigits text with
    | none => none
    | some (digits, rest) =>
      if first : digits.codes.head? ≠ some 0x30 then some (⟨digits, .inr first⟩, rest) else none

/-- A point and a run of digits, or nothing. -/
def matchFrac : List Nat → Option Digits × List Nat
  | 0x2E :: text =>
    match matchDigits text with
    | some (digits, rest) => (some digits, rest)
    | none => (none, 0x2E :: text)
  | text => (none, text)

/-- A sign, or nothing. -/
def matchSign : List Nat → {sign : Option Nat // sign = none ∨ sign = some 0x2B ∨
    sign = some 0x2D} × List Nat
  | 0x2B :: text => (⟨some 0x2B, .inr (.inl rfl)⟩, text)
  | 0x2D :: text => (⟨some 0x2D, .inr (.inr rfl)⟩, text)
  | text => (⟨none, .inl rfl⟩, text)

/-- An exponent, or nothing. -/
def matchExp : List Nat → Option Exponent × List Nat
  | [] => (none, [])
  | mark :: text =>
    if marked : mark = 0x65 ∨ mark = 0x45 then
      match matchDigits (matchSign text).2 with
      | some (digits, rest) =>
        (some ⟨mark, marked, (matchSign text).1.1, (matchSign text).1.2, digits⟩, rest)
      | none => (none, mark :: text)
    else (none, mark :: text)

/-- A minus, or nothing. -/
def matchMinus : List Nat → Bool × List Nat
  | 0x2D :: text => (true, text)
  | text => (false, text)

/-- The longest number a text begins with, if there is one. -/
def matchNumber (text : List Nat) : Option (Number × List Nat) :=
  match matchInteger (matchMinus text).2 with
  | none => none
  | some (int, rest) =>
    some (⟨(matchMinus text).1, int, (matchFrac rest).1, (matchExp (matchFrac rest).2).1⟩,
      (matchExp (matchFrac rest).2).2)

theorem matchDigits_sound {text rest : List Nat} {digits : Digits}
    (found : matchDigits text = some (digits, rest)) : text = digits.codes ++ rest := by
  unfold matchDigits at found
  split_ifs at found
  obtain ⟨rfl, rfl⟩ := Prod.mk.inj (Option.some.inj found)
  exact List.takeWhile_append_dropWhile.symm

theorem matchInteger_sound {text rest : List Nat} {int : Integer}
    (found : matchInteger text = some (int, rest)) : text = int.codes ++ rest := by
  unfold matchInteger at found
  split_ifs at found with zero
  · obtain ⟨rfl, rfl⟩ := Prod.mk.inj (Option.some.inj found)
    cases text with
    | nil => cases zero
    | cons code rest =>
      cases zero
      rfl
  · split at found
    · cases found
    · next digits rest found' =>
      split_ifs at found
      obtain ⟨rfl, rfl⟩ := Prod.mk.inj (Option.some.inj found)
      exact matchDigits_sound found'

theorem matchFrac_sound (text : List Nat) :
    fracText (matchFrac text).1 ++ (matchFrac text).2 = text := by
  unfold matchFrac
  split
  · next rest =>
    cases found : matchDigits rest with
    | none => rfl
    | some pair =>
      simp only [fracText, List.cons_append]
      rw [← matchDigits_sound found]
  · rfl

theorem matchSign_sound (text : List Nat) :
    (matchSign text).1.1.toList ++ (matchSign text).2 = text := by
  unfold matchSign
  split <;> rfl

theorem matchExp_sound (text : List Nat) :
    expText (matchExp text).1 ++ (matchExp text).2 = text := by
  unfold matchExp
  split
  · rfl
  · next mark rest =>
    split_ifs with marked
    · cases found : matchDigits (matchSign rest).2 with
      | none => rfl
      | some pair =>
        simp only [expText, Exponent.text, List.cons_append, List.append_assoc]
        rw [← matchDigits_sound found, matchSign_sound]
    · rfl

theorem matchMinus_sound (text : List Nat) :
    (if (matchMinus text).1 then [0x2D] else []) ++ (matchMinus text).2 = text := by
  unfold matchMinus
  split <;> rfl

theorem matchNumber_sound {text rest : List Nat} {number : Number}
    (found : matchNumber text = some (number, rest)) : text = number.text ++ rest := by
  unfold matchNumber at found
  split at found
  · cases found
  · next int later found' =>
    obtain ⟨rfl, rfl⟩ := Prod.mk.inj (Option.some.inj found)
    conv_lhs => rw [← matchMinus_sound text, matchInteger_sound found', ← matchFrac_sound later,
      ← matchExp_sound (matchFrac later).2]
    simp only [Number.text, List.append_assoc]

/-- A run of digits is found whole before anything but a digit. -/
theorem matchDigits_append (digits : Digits) {rest : List Nat}
    (ends : ∀ code ∈ rest.head?, isDigit code = false) :
    matchDigits (digits.codes ++ rest) = some (digits, rest) := by
  have taken : (digits.codes ++ rest).takeWhile isDigit = digits.codes := by
    rw [List.takeWhile_append_of_pos digits.digits]
    cases rest with
    | nil => simp
    | cons code rest => simp [ends code rfl]
  have left : (digits.codes ++ rest).dropWhile isDigit = rest := by
    rw [List.dropWhile_append_of_pos digits.digits]
    cases rest with
    | nil => rfl
    | cons code rest => rw [List.dropWhile_cons_of_neg]; simp [ends code rfl]
  unfold matchDigits
  rw [dif_pos (by rw [taken]; exact digits.nonempty)]
  simp only [taken, left]

theorem matchInteger_append (int : Integer) {rest : List Nat}
    (ends : ∀ code ∈ rest.head?, isDigit code = false) :
    matchInteger (int.codes ++ rest) = some (int, rest) := by
  obtain ⟨digits, canonical⟩ := int
  unfold matchInteger
  by_cases zero : digits.codes = [0x30]
  · obtain ⟨codes, nonempty, digit⟩ := digits
    subst zero
    rfl
  · have other := canonical.resolve_left zero
    have first : (digits.codes ++ rest).head? ≠ some 0x30 := by
      obtain ⟨code, codes, split⟩ := List.exists_cons_of_ne_nil digits.nonempty
      rw [split] at other ⊢
      exact other
    rw [if_neg first]
    simp only [matchDigits_append digits ends]
    rw [dif_pos other]

theorem Delimits.not_digit {rest : List Nat} (delimits : Delimits rest) :
    ∀ code ∈ rest.head?, isDigit code = false := by
  intro code first
  have := delimits code first
  simp only [continuesNumber, Bool.or_eq_false_iff] at this
  exact this.1.1.1

/-- A sign is found ahead of digits, and none where there is none. -/
theorem matchSign_append (digits : Digits) {sign : Option Nat}
    (signed : sign = none ∨ sign = some 0x2B ∨ sign = some 0x2D) {rest : List Nat} :
    matchSign (sign.toList ++ (digits.codes ++ rest)) = (⟨sign, signed⟩, digits.codes ++ rest) := by
  rcases signed with rfl | rfl | rfl
  · obtain ⟨code, codes, split⟩ := List.exists_cons_of_ne_nil digits.nonempty
    have digit := digits.digits code (by rw [split]; exact List.mem_cons_self)
    simp only [isDigit, Bool.and_eq_true, decide_eq_true_eq] at digit
    simp only [Option.toList_none, List.nil_append, split, List.cons_append]
    unfold matchSign
    split
    · next same =>
      have := (List.cons.inj same).1
      omega
    · next same =>
      have := (List.cons.inj same).1
      omega
    · rfl
  · rfl
  · rfl

theorem matchExp_append (exp : Option Exponent) {rest : List Nat} (delimits : Delimits rest) :
    matchExp (expText exp ++ rest) = (exp, rest) := by
  cases exp with
  | none =>
    simp only [expText, List.nil_append]
    unfold matchExp
    split
    · rfl
    · next mark text =>
      have := delimits mark rfl
      simp only [continuesNumber, Bool.or_eq_false_iff, beq_eq_false_iff_ne] at this
      rw [dif_neg (by omega)]
  | some exponent =>
    obtain ⟨mark, marked, sign, signed, digits⟩ := exponent
    simp only [expText, Exponent.text, List.cons_append, List.append_assoc]
    simp only [matchExp]
    rw [dif_pos marked]
    simp only [matchSign_append digits signed, matchDigits_append digits delimits.not_digit]

theorem matchFrac_append (frac : Option Digits) {rest : List Nat}
    (ends : ∀ code ∈ rest.head?, isDigit code = false ∧ code ≠ 0x2E) :
    matchFrac (fracText frac ++ rest) = (frac, rest) := by
  cases frac with
  | none =>
    simp only [fracText, List.nil_append]
    unfold matchFrac
    split
    · exact absurd rfl (ends _ rfl).2
    · rfl
  | some digits =>
    simp only [fracText, List.cons_append, matchFrac]
    rw [matchDigits_append digits fun code first => (ends code first).1]

theorem expText_append_head (exp : Option Exponent) {rest : List Nat} (delimits : Delimits rest) :
    ∀ code ∈ (expText exp ++ rest).head?, isDigit code = false ∧ code ≠ 0x2E := by
  cases exp with
  | none =>
    intro code first
    have := delimits code first
    simp only [continuesNumber, Bool.or_eq_false_iff, beq_eq_false_iff_ne] at this
    exact ⟨this.1.1.1, this.1.1.2⟩
  | some exponent =>
    intro code first
    cases first
    rcases exponent.marked with mark | mark <;> rw [mark] <;> decide

theorem fracText_append_head {frac : Option Digits} {rest : List Nat}
    (ends : ∀ code ∈ rest.head?, isDigit code = false ∧ code ≠ 0x2E) :
    ∀ code ∈ (fracText frac ++ rest).head?, isDigit code = false := by
  cases frac with
  | none => exact fun code first => (ends code first).1
  | some digits =>
    intro code first
    cases first
    rfl

/-- A minus is found ahead of an integer, and none where there is none. -/
theorem matchMinus_append (minus : Bool) (int : Integer) (rest : List Nat) :
    matchMinus ((if minus then [0x2D] else []) ++ (int.codes ++ rest)) =
      (minus, int.codes ++ rest) := by
  cases minus with
  | true => rfl
  | false =>
    obtain ⟨code, codes, split⟩ := List.exists_cons_of_ne_nil int.nonempty
    have digit := int.digits code (by rw [split]; exact List.mem_cons_self)
    simp only [isDigit, Bool.and_eq_true, decide_eq_true_eq] at digit
    simp only [Bool.false_eq_true, if_false, List.nil_append, split, List.cons_append]
    unfold matchMinus
    split
    · next same =>
      have := (List.cons.inj same).1
      omega
    · rfl

/-- A number is found whole before anything that does not carry it on. -/
theorem matchNumber_append (number : Number) {rest : List Nat} (delimits : Delimits rest) :
    matchNumber (number.text ++ rest) = some (number, rest) := by
  obtain ⟨minus, int, frac, exp⟩ := number
  have exponentEnds := expText_append_head exp delimits
  simp only [Number.text, List.append_assoc]
  unfold matchNumber
  rw [matchMinus_append]
  simp only [matchInteger_append int (fracText_append_head exponentEnds),
    matchFrac_append frac exponentEnds, matchExp_append exp delimits]

/-! ### The longest number -/

theorem matchExp_length (text : List Nat) : (matchExp text).2.length ≤ text.length := by
  have split := congrArg List.length (matchExp_sound text)
  rw [List.length_append] at split
  omega

theorem matchFrac_length (text : List Nat) : (matchFrac text).2.length ≤ text.length := by
  have split := congrArg List.length (matchFrac_sound text)
  rw [List.length_append] at split
  omega

/-- A run of digits is found, with those that carry it on. -/
theorem matchDigits_longest (digits : Digits) (rest : List Nat) :
    ∃ longest, matchDigits (digits.codes ++ rest) = some (longest, rest.dropWhile isDigit) := by
  have nonempty : (digits.codes ++ rest).takeWhile isDigit ≠ [] := by
    rw [List.takeWhile_append_of_pos digits.digits]
    exact List.append_ne_nil_of_left_ne_nil digits.nonempty _
  exact ⟨_, (dif_pos nonempty).trans
    (by rw [List.dropWhile_append_of_pos digits.digits])⟩

theorem matchExp_longest (exp : Option Exponent) (rest : List Nat) :
    (matchExp (expText exp ++ rest)).2.length ≤ rest.length := by
  cases exp with
  | none => exact matchExp_length rest
  | some exponent =>
    obtain ⟨mark, marked, sign, signed, digits⟩ := exponent
    obtain ⟨longest, found⟩ := matchDigits_longest digits rest
    simp only [expText, Exponent.text, List.cons_append, List.append_assoc]
    simp only [matchExp]
    rw [dif_pos marked]
    simp only [matchSign_append digits signed, found]
    exact (List.dropWhile_suffix _).length_le

/-- What is behind a number's integer is found as far as it goes. -/
theorem matchFrac_longest (frac : Option Digits) (exp : Option Exponent) (rest : List Nat) :
    (matchExp (matchFrac (fracText frac ++ (expText exp ++ rest))).2).2.length ≤ rest.length := by
  have ends (exponent : Exponent) : ∀ code ∈ (expText (some exponent) ++ rest).head?,
      isDigit code = false ∧ code ≠ 0x2E := by
    rintro code ⟨⟩
    rcases exponent.marked with mark | mark <;> rw [mark] <;> decide
  cases exp with
  | some exponent =>
    rw [matchFrac_append frac (ends exponent)]
    exact matchExp_longest (some exponent) rest
  | none =>
    refine (matchExp_length _).trans ?_
    cases frac with
    | none => exact matchFrac_length rest
    | some digits =>
      obtain ⟨longest, found⟩ := matchDigits_longest digits rest
      simp only [fracText, expText, List.nil_append, List.cons_append, matchFrac]
      rw [found]
      exact (List.dropWhile_suffix _).length_le

theorem matchInteger_longest (int : Integer) (rest : List Nat) :
    ∃ longest left, matchInteger (int.codes ++ rest) = some (longest, left) ∧
      left.length ≤ rest.length := by
  by_cases zero : int.codes = [0x30]
  · have found : matchInteger (int.codes ++ rest) =
        some (⟨⟨[0x30], by simp, by simp [isDigit]⟩, .inl rfl⟩, rest) := by
      rw [zero]
      rfl
    exact ⟨_, rest, found, le_rfl⟩
  · have first := int.canonical.resolve_left zero
    obtain ⟨code, codes, split⟩ := List.exists_cons_of_ne_nil int.nonempty
    obtain ⟨longest, found⟩ := matchDigits_longest int.toDigits rest
    have longestFirst : longest.codes.head? ≠ some 0x30 := by
      have whole := congrArg List.head? (matchDigits_sound found)
      rw [split] at whole first
      obtain ⟨code', codes', split'⟩ := List.exists_cons_of_ne_nil longest.nonempty
      rw [split'] at whole ⊢
      exact whole ▸ first
    refine ⟨⟨longest, .inr longestFirst⟩, rest.dropWhile isDigit, ?_,
      (List.dropWhile_suffix _).length_le⟩
    rw [matchInteger, if_neg (by rw [split] at first ⊢; exact first), found]
    exact dif_pos longestFirst

/-- A number is found, or one that carries it on. -/
theorem matchNumber_longest (number : Number) (rest : List Nat) :
    ∃ longest left, matchNumber (number.text ++ rest) = some (longest, left) ∧
      left.length ≤ rest.length := by
  obtain ⟨minus, int, frac, exp⟩ := number
  have parts := matchFrac_longest frac exp rest
  simp only [Number.text, List.append_assoc]
  unfold matchNumber
  rw [matchMinus_append]
  by_cases ends : ∀ code ∈ (fracText frac ++ (expText exp ++ rest)).head?, isDigit code = false
  · simp only [matchInteger_append int ends]
    exact ⟨_, _, rfl, parts⟩
  · have integer : fracText frac ++ (expText exp ++ rest) = rest := by
      cases frac with
      | some digits => exact absurd (by rintro _ ⟨⟩; rfl) ends
      | none =>
        cases exp with
        | none => rfl
        | some exponent =>
          refine absurd ?_ ends
          rintro _ ⟨⟩
          rcases exponent.marked with mark | mark <;> rw [mark] <;> rfl
    obtain ⟨longest, left, found, fewer⟩ := matchInteger_longest int rest
    rw [integer, found]
    exact ⟨_, _, rfl, (matchExp_length _).trans ((matchFrac_length left).trans fewer)⟩

/-- Two numbers of one text are one. -/
theorem Number.text_injective : Function.Injective Number.text := by
  intro first second same
  have found := @matchNumber_append first [] (by simp [Delimits])
  rw [same, matchNumber_append second (by simp [Delimits])] at found
  exact (Prod.mk.inj (Option.some.inj found)).1.symm

/-- A number that is the longest of a text is the longest of any cut of it that holds it. -/
theorem matchNumber_cut {number : Number} {more rest : List Nat}
    (whole : matchNumber (number.text ++ (more ++ rest)) = some (number, more ++ rest)) :
    matchNumber (number.text ++ more) = some (number, more) := by
  obtain ⟨longest, left, found, fewer⟩ := matchNumber_longest number more
  have split := matchNumber_sound found
  obtain ⟨other, left', found', fewer'⟩ := matchNumber_longest longest (left ++ rest)
  rw [← List.append_assoc, ← split, List.append_assoc, whole] at found'
  obtain ⟨rfl, rfl⟩ := Prod.mk.inj (Option.some.inj found')
  simp only [List.length_append] at fewer'
  have same : left.length = more.length := by omega
  obtain ⟨texts, rfl⟩ := List.append_inj' split same.symm
  rw [found, Number.text_injective texts]

/-- A value a text begins with is all the text has of it: a number could have been carried on. -/
def Value.Longest (rest : List Nat) : Value → Prop
  | .number found => matchNumber (found.text ++ rest) = some (found, rest)
  | _ => True

theorem Value.longest_of_delimits (value : Value) {rest : List Nat} (delimits : Delimits rest) :
    value.Longest rest := by
  cases value with
  | number found => exact matchNumber_append found delimits
  | _ => trivial

/-! ### Literals -/

/-- The literal a text begins with, if there is one. -/
def matchLiteral : List Nat → Option (Literal × List Nat)
  | 0x74 :: 0x72 :: 0x75 :: 0x65 :: rest => some (.true, rest)
  | 0x66 :: 0x61 :: 0x6C :: 0x73 :: 0x65 :: rest => some (.false, rest)
  | 0x6E :: 0x75 :: 0x6C :: 0x6C :: rest => some (.null, rest)
  | _ => none

theorem matchLiteral_append (which : Literal) (rest : List Nat) :
    matchLiteral (which.text ++ rest) = some (which, rest) := by
  cases which <;> rfl

theorem matchLiteral_sound {text rest : List Nat} {which : Literal}
    (found : matchLiteral text = some (which, rest)) : text = which.text ++ rest := by
  unfold matchLiteral at found
  split at found <;> cases found <;> rfl

/-- A text with any other first code begins with no literal. -/
theorem matchLiteral_none {code : Nat} {rest : List Nat}
    (other : code ≠ 0x74 ∧ code ≠ 0x66 ∧ code ≠ 0x6E) : matchLiteral (code :: rest) = none := by
  unfold matchLiteral
  split
  · next same => exact absurd (List.cons.inj same).1 other.1
  · next same => exact absurd (List.cons.inj same).1 other.2.1
  · next same => exact absurd (List.cons.inj same).1 other.2.2
  · rfl

theorem matchNumber_none {code : Nat} {rest : List Nat} (minus : code ≠ 0x2D)
    (other : isDigit code = false) : matchNumber (code :: rest) = none := by
  have unsigned : matchMinus (code :: rest) = (false, code :: rest) := by
    unfold matchMinus
    split
    · next same => exact absurd (List.cons.inj same).1 minus
    · rfl
  have nonzero : (code :: rest).head? ≠ some 0x30 := by
    intro zero
    rw [Option.some.inj zero] at other
    cases other
  have nothing : matchInteger (code :: rest) = none := by
    unfold matchInteger
    rw [if_neg nonzero]
    simp [matchDigits, other]
  unfold matchNumber
  rw [unsigned, nothing]

/-! ### Strings -/

/-- The piece of a string a text begins with, if there is one. -/
def matchPiece : List Nat → Option (Piece × List Nat)
  | 0x5C :: 0x75 :: first :: second :: third :: fourth :: rest =>
    if ok : isHex first = true ∧ isHex second = true ∧ isHex third = true ∧
        isHex fourth = true then
      some (.hex first second third fourth ok, rest)
    else none
  | 0x5C :: code :: rest =>
    if ok : isEscape code = true then some (.escape code ok, rest) else none
  | code :: rest => if ok : isPlain code = true then some (.plain code ok, rest) else none
  | [] => none

/-- At most `fuel` pieces and the closing quotation mark after them. -/
def matchContent : Nat → List Nat → Option (List Piece × List Nat)
  | 0, _ => none
  | _ + 1, 0x22 :: rest => some ([], rest)
  | fuel + 1, text => do
    let (piece, rest) ← matchPiece text
    let (pieces, rest) ← matchContent fuel rest
    return (piece :: pieces, rest)

/-- The content of a string up to its closing quotation mark, which is taken with it. -/
def matchPieces (text : List Nat) : Option (List Piece × List Nat) :=
  matchContent text.length text

theorem matchPiece_sound {text rest : List Nat} {piece : Piece}
    (found : matchPiece text = some (piece, rest)) : text = piece.text ++ rest := by
  unfold matchPiece at found
  split at found
  · split_ifs at found
    cases found
    rfl
  · split_ifs at found
    cases found
    rfl
  · split_ifs at found
    cases found
    rfl
  · cases found

theorem matchPiece_append (piece : Piece) (rest : List Nat) :
    matchPiece (piece.text ++ rest) = some (piece, rest) := by
  cases piece with
  | plain code ok =>
    have solid := ok
    simp only [isPlain, Bool.and_eq_true, bne_iff_ne] at solid
    simp only [Piece.text, List.cons_append, List.nil_append]
    unfold matchPiece
    split
    · next same => exact absurd (List.cons.inj same).1 solid.2
    · next same => exact absurd (List.cons.inj same).1 solid.2
    · next same =>
      obtain ⟨rfl, rfl⟩ := List.cons.inj same
      rw [dif_pos ok]
    · next same => cases same
  | escape code ok =>
    have other : code ≠ 0x75 := by
      rintro rfl
      cases ok
    simp only [Piece.text, List.cons_append, List.nil_append]
    unfold matchPiece
    split
    · next same => exact absurd (List.cons.inj (List.cons.inj same).2).1 other
    · next same =>
      obtain ⟨rfl, rfl⟩ := List.cons.inj (List.cons.inj same).2
      rw [dif_pos ok]
    · next later same =>
      obtain ⟨rfl, rfl⟩ := List.cons.inj same
      exact absurd rfl (later _ _ rfl)
    · next same => cases same
  | hex first second third fourth ok =>
    simp only [Piece.text, List.cons_append, List.nil_append, matchPiece]
    rw [dif_pos ok]

theorem Piece.text_ne_quote (piece : Piece) (rest : List Nat) :
    ∃ code more, piece.text ++ rest = code :: more ∧ code ≠ 0x22 ∧ rest.length ≤ more.length := by
  cases piece with
  | plain code ok =>
    simp only [isPlain, Bool.and_eq_true, bne_iff_ne] at ok
    exact ⟨code, rest, rfl, ok.1.2, le_rfl⟩
  | escape code ok => exact ⟨_, _, rfl, by decide, by simp⟩
  | hex first second third fourth ok => exact ⟨_, _, rfl, by decide, by simp; omega⟩

theorem matchContent_sound {fuel : Nat} {text rest : List Nat} {pieces : List Piece}
    (found : matchContent fuel text = some (pieces, rest)) :
    text = content pieces ++ 0x22 :: rest := by
  induction fuel generalizing text pieces with
  | zero => cases found
  | succ fuel inductionHypothesis =>
    unfold matchContent at found
    split at found
    · cases found
    · cases found
      rfl
    · next same _ =>
      obtain rfl := Nat.succ.inj same
      simp only [Option.bind_eq_bind, Option.bind_eq_some_iff, Prod.exists] at found
      obtain ⟨piece, later, matched, pieces, rest, found, same⟩ := found
      cases same
      rw [matchPiece_sound matched, inductionHypothesis found, content_cons, List.append_assoc]

theorem matchContent_append {fuel : Nat} (pieces : List Piece) (rest : List Nat)
    (enough : (content pieces).length < fuel) :
    matchContent fuel (content pieces ++ 0x22 :: rest) = some (pieces, rest) := by
  induction pieces generalizing fuel with
  | nil =>
    obtain ⟨fuel, rfl⟩ := Nat.exists_eq_add_of_lt enough
    rfl
  | cons piece pieces inductionHypothesis =>
    obtain ⟨code, more, split, open_, longer⟩ :=
      piece.text_ne_quote (content pieces ++ 0x22 :: rest)
    have matched := matchPiece_append piece (content pieces ++ 0x22 :: rest)
    have size := congrArg List.length split
    simp only [List.length_append, List.length_cons] at size longer
    cases fuel with
    | zero => cases enough
    | succ fuel =>
      simp only [content_cons, List.length_append] at enough
      rw [content_cons, List.append_assoc, split]
      rw [split] at matched
      unfold matchContent
      split
      · next same => cases same
      · next same => exact absurd (List.cons.inj same).1 open_
      · next same _ =>
        obtain rfl := Nat.succ.inj same
        simp only [matched, Option.bind_eq_bind, Option.bind_some]
        rw [inductionHypothesis (by omega)]
        rfl

theorem matchPieces_sound {text rest : List Nat} {pieces : List Piece}
    (found : matchPieces text = some (pieces, rest)) : text = content pieces ++ 0x22 :: rest :=
  matchContent_sound found

theorem matchPieces_append (pieces : List Piece) (rest : List Nat) :
    matchPieces (content pieces ++ 0x22 :: rest) = some (pieces, rest) :=
  matchContent_append pieces rest (by simp)

/-- A run of plain codes is the content of a string. -/
theorem exists_plain {codes : List Nat} (plain : ∀ code ∈ codes, isPlain code = true) :
    ∃ pieces, content pieces = codes := by
  induction codes with
  | nil => exact ⟨[], rfl⟩
  | cons code codes inductionHypothesis =>
    obtain ⟨pieces, rfl⟩ := inductionHypothesis fun code member =>
      plain code (List.mem_cons_of_mem _ member)
    exact ⟨.plain code (plain code List.mem_cons_self) :: pieces, rfl⟩

/-- The plain codes a string begins with are pieces of its content. -/
theorem content_split {plain more rest : List Nat} {pieces : List Piece}
    (all : ∀ code ∈ plain, isPlain code = true)
    (same : content pieces ++ 0x22 :: rest = plain ++ more) :
    ∃ later, content pieces = plain ++ content later ∧ more = content later ++ 0x22 :: rest := by
  induction plain generalizing pieces with
  | nil => exact ⟨pieces, rfl, same.symm⟩
  | cons code plain inductionHypothesis =>
    have first := all code List.mem_cons_self
    cases pieces with
    | nil =>
      obtain ⟨rfl, _⟩ := List.cons.inj same
      cases first
    | cons piece pieces =>
      cases piece with
      | plain found ok =>
        obtain ⟨rfl, rests⟩ := List.cons.inj same
        obtain ⟨later, split, left⟩ := inductionHypothesis
          (fun code member => all code (List.mem_cons_of_mem _ member)) rests
        exact ⟨later, congrArg (found :: ·) split, left⟩
      | escape found ok =>
        obtain ⟨rfl, _⟩ := List.cons.inj same
        cases first
      | hex _ _ _ _ ok =>
        obtain ⟨rfl, _⟩ := List.cons.inj same
        cases first

end JsonText
