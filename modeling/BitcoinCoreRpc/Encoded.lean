/-
This file is a document beside its UTF-8 encoding, as a library.

A reader of octets and a reader of code points hold two syntax trees of one document.
They have the same tokens but for the contents of strings, which the one spells in octets
and the other in code points, so one relation holds the two together: the shape, the
depth, the numbers and the white space are the same, and every string of the one encodes
the string of the other. Each tree of either kind has its counterpart.
-/

import BitcoinCoreRpc.Tokens
import BitcoinCoreRpc.Utf8

namespace JsonText

open Utf8

/-! ### Tokens -/

theorem blank_ascii {code : Nat} (blank : isBlank code = true) : code < 0x80 := by
  simp only [isBlank, Bool.or_eq_true, beq_iff_eq] at blank
  omega

theorem digit_ascii {code : Nat} (digit : isDigit code = true) : code < 0x80 := by
  simp only [isDigit, Bool.and_eq_true, decide_eq_true_eq] at digit
  omega

theorem hex_ascii {code : Nat} (hex : isHex code = true) : code < 0x80 := by
  simp only [isHex, isDigit, Bool.or_eq_true, Bool.and_eq_true, decide_eq_true_eq] at hex
  omega

theorem escape_ascii {code : Nat} (escape : isEscape code = true) : code < 0x80 := by
  simp only [isEscape, Bool.or_eq_true, beq_iff_eq] at escape
  omega

theorem plain_of_wide {code : Nat} (wide : 0x80 ≤ code) : isPlain code = true := by
  simp only [isPlain, Bool.and_eq_true, decide_eq_true_eq, bne_iff_ne]
  omega

/-- A text that is the same in octets and in code points. -/
abbrev Ascii (text : List Nat) : Prop :=
  ∀ code ∈ text, code < 0x80

theorem Ascii.append {first second : List Nat} (front : Ascii first) (back : Ascii second) :
    Ascii (first ++ second) := fun code member =>
  (List.mem_append.mp member).elim (front code) (back code)

theorem Blank.ascii (pad : Blank) : Ascii pad.codes :=
  fun code member => blank_ascii (pad.blank code member)

theorem Digits.ascii (digits : Digits) : Ascii digits.codes :=
  fun code member => digit_ascii (digits.digits code member)

theorem Literal.ascii (which : Literal) : Ascii which.text := by
  cases which <;> decide

theorem Kind.opener_ascii (kind : Kind) : kind.opener < 0x80 := by cases kind <;> decide

theorem Kind.closer_ascii (kind : Kind) : kind.closer < 0x80 := by cases kind <;> decide

/-- A number is digits and the five marks of the grammar. -/
theorem Number.codes {holds : Nat → Prop} (digit : ∀ code, isDigit code = true → holds code)
    (marks : ∀ code ∈ [0x2B, 0x2D, 0x2E, 0x45, 0x65], holds code) (number : Number) :
    ∀ code ∈ number.text, holds code := by
  have digits (run : Digits) : ∀ code ∈ run.codes, holds code :=
    fun code member => digit code (run.digits code member)
  obtain ⟨minus, int, frac, exp⟩ := number
  have sign : ∀ code ∈ (if minus then [0x2D] else []), holds code := by
    cases minus with
    | true => exact List.forall_mem_singleton.mpr (marks _ (by decide))
    | false => exact nofun
  have point : ∀ code ∈ fracText frac, holds code := by
    cases frac with
    | none => exact nofun
    | some run => exact List.forall_mem_cons.mpr ⟨marks _ (by decide), digits run⟩
  have power : ∀ code ∈ expText exp, holds code := by
    cases exp with
    | none => exact nofun
    | some exponent =>
      obtain ⟨mark, marked, sign, signed, run⟩ := exponent
      have markHolds : holds mark := by
        rcases marked with rfl | rfl
        · exact marks _ (by decide)
        · exact marks _ (by decide)
      have signHolds : ∀ code ∈ sign.toList, holds code := by
        rcases signed with rfl | rfl | rfl
        · exact nofun
        · exact List.forall_mem_singleton.mpr (marks _ (by decide))
        · exact List.forall_mem_singleton.mpr (marks _ (by decide))
      exact List.forall_mem_cons.mpr ⟨markHolds, List.forall_mem_append.mpr ⟨signHolds, digits run⟩⟩
  exact List.forall_mem_append.mpr ⟨List.forall_mem_append.mpr
    ⟨List.forall_mem_append.mpr ⟨sign, digits int.toDigits⟩, point⟩, power⟩

theorem Number.ascii (number : Number) : Ascii number.text :=
  number.codes (fun _ => digit_ascii) (by decide)

theorem Begins.ascii {code : Nat} (begins : Begins code) : code < 0x80 := by
  cases begins with
  | literal which code first =>
    cases which <;> simp only [Literal.text, List.head?_cons, Option.some.injEq] at first <;> omega
  | number code first =>
    rcases first with rfl | digit
    · decide
    · exact digit_ascii digit
  | string => decide
  | container kind => exact kind.opener_ascii

/-- A text that ends in an ASCII code. -/
def EndsAscii (text : List Nat) : Prop :=
  ∃ front code, text = front ++ [code] ∧ code < 0x80

theorem endsAscii_singleton {code : Nat} (ascii : code < 0x80) : EndsAscii [code] :=
  ⟨[], code, rfl, ascii⟩

theorem EndsAscii.after {text : List Nat} (ends : EndsAscii text) (before : List Nat) :
    EndsAscii (before ++ text) := by
  obtain ⟨front, code, rfl, ascii⟩ := ends
  exact ⟨before ++ front, code, (List.append_assoc _ _ _).symm, ascii⟩

theorem Ascii.ends {text : List Nat} (ascii : Ascii text) (nonempty : text ≠ []) : EndsAscii text :=
  ⟨text.dropLast, text.getLast nonempty, (List.dropLast_append_getLast nonempty).symm,
    ascii _ (List.getLast_mem nonempty)⟩

theorem endsAscii_quoted (pieces : List Piece) : EndsAscii (quoted pieces) :=
  (endsAscii_singleton (by decide)).after (0x22 :: content pieces)

theorem Tail.endsAscii {kind : Kind} : (tail : Tail kind) → EndsAscii tail.text
  | .close pad => (endsAscii_singleton kind.closer_ascii).after pad.codes
  | .more pad head value tail => by
    have split : (Tail.more pad head value tail).text =
        pad.codes ++ 0x2C :: (head.text ++ value.text) ++ tail.text := by simp [Tail.text]
    rw [split]
    exact (Tail.endsAscii tail).after _

/-- A value ends in an ASCII code, as it begins with one. -/
theorem Value.endsAscii (value : Value) : EndsAscii value.text := by
  have nonempty : value.text ≠ [] := List.length_pos_iff.mp value.text_pos
  cases value with
  | literal which => exact which.ascii.ends nonempty
  | number number => exact number.ascii.ends nonempty
  | string pieces => exact endsAscii_quoted pieces
  | empty kind pad => exact (endsAscii_singleton kind.closer_ascii).after (kind.opener :: pad.codes)
  | full kind head value tail =>
    have split : (Value.full kind head value tail).text =
        kind.opener :: (head.text ++ value.text) ++ tail.text := by simp [Value.text]
    rw [split]
    exact tail.endsAscii.after _

/-- An ASCII token at the front of an encoded text is a token of the text. -/
theorem encode_split {token chars rest : List Nat} (ascii : Ascii token)
    (same : encode chars = token ++ rest) :
    ∃ later, chars = token ++ later ∧ encode later = rest := by
  induction token generalizing chars with
  | nil => exact ⟨chars, rfl, same⟩
  | cons code token inductionHypothesis =>
    obtain ⟨more, rfl, left⟩ := encode_eq_ascii_cons (ascii code List.mem_cons_self) same
    obtain ⟨later, rfl, last⟩ := inductionHypothesis
      (fun code member => ascii code (List.mem_cons_of_mem _ member)) left
    exact ⟨later, rfl, last⟩

/-! ### Texts without a NUL -/

/-- A text without a NUL. -/
abbrev NoNul (text : List Nat) : Prop :=
  ∀ code ∈ text, 0 < code

theorem noNul_nil : NoNul [] :=
  List.forall_mem_nil _

theorem NoNul.append {first second : List Nat} (front : NoNul first) (back : NoNul second) :
    NoNul (first ++ second) :=
  List.forall_mem_append.mpr ⟨front, back⟩

theorem NoNul.cons {code : Nat} {text : List Nat} (first : 0 < code) (rest : NoNul text) :
    NoNul (code :: text) :=
  List.forall_mem_cons.mpr ⟨first, rest⟩

theorem Blank.noNul (pad : Blank) : NoNul pad.codes := by
  intro code member
  have blank := pad.blank code member
  simp only [isBlank, Bool.or_eq_true, beq_iff_eq] at blank
  omega

theorem Kind.opener_pos (kind : Kind) : 0 < kind.opener := by cases kind <;> decide

theorem Kind.closer_pos (kind : Kind) : 0 < kind.closer := by cases kind <;> decide

theorem Number.noNul (number : Number) : NoNul number.text := by
  refine number.codes (fun code digit => ?_) (by decide)
  simp only [isDigit, Bool.and_eq_true, decide_eq_true_eq] at digit
  omega

theorem Piece.noNul (piece : Piece) : NoNul piece.text := by
  have hex (code : Nat) (ok : isHex code = true) : 0 < code := by
    simp only [isHex, isDigit, Bool.or_eq_true, Bool.and_eq_true, decide_eq_true_eq] at ok
    omega
  cases piece with
  | plain code ok =>
    simp only [isPlain, Bool.and_eq_true, decide_eq_true_eq] at ok
    exact .cons (by omega) noNul_nil
  | escape code ok =>
    simp only [isEscape, Bool.or_eq_true, beq_iff_eq] at ok
    exact .cons (by decide) (.cons (by omega) noNul_nil)
  | hex first second third fourth ok =>
    exact .cons (by decide) (.cons (by decide) (.cons (hex _ ok.1) (.cons (hex _ ok.2.1)
      (.cons (hex _ ok.2.2.1) (.cons (hex _ ok.2.2.2) noNul_nil)))))

theorem quoted_noNul (pieces : List Piece) : NoNul (quoted pieces) := by
  refine .cons (by decide) (.append ?_ (.cons (by decide) noNul_nil))
  intro code member
  obtain ⟨piece, _, inside⟩ := List.mem_flatMap.mp member
  exact piece.noNul code inside

theorem Head.noNul {kind : Kind} (head : Head kind) : NoNul head.text := by
  cases head with
  | item pad => exact pad.noNul
  | member pad name gap lead =>
    exact ((pad.noNul.append (quoted_noNul name)).append gap.noNul).append
      (.cons (by decide) lead.noNul)

mutual
/-- No value has a NUL in it. -/
theorem Value.noNul : (value : Value) → NoNul value.text
  | .literal which => by cases which <;> decide
  | .number number => Number.noNul number
  | .string pieces => quoted_noNul pieces
  | .empty kind pad => .cons kind.opener_pos (pad.noNul.append (.cons kind.closer_pos noNul_nil))
  | .full kind head value tail =>
    .cons kind.opener_pos ((head.noNul.append (Value.noNul value)).append (Tail.noNul tail))

theorem Tail.noNul {kind : Kind} : (tail : Tail kind) → NoNul tail.text
  | .close pad => pad.noNul.append (.cons kind.closer_pos noNul_nil)
  | .more pad head value tail =>
    pad.noNul.append
      (.cons (by decide) ((head.noNul.append (Value.noNul value)).append (Tail.noNul tail)))
end

/-! ### Strings -/

/-- A piece that is the same in octets and in code points. -/
theorem Piece.ascii_or (piece : Piece) :
    Ascii piece.text ∨ ∃ code ok, piece = .plain code ok ∧ 0x80 ≤ code := by
  cases piece with
  | plain code ok =>
    by_cases narrow : code < 0x80
    · exact .inl (by simpa [Ascii, Piece.text] using narrow)
    · exact .inr ⟨code, ok, rfl, by omega⟩
  | escape code ok => exact .inl (by simpa [Ascii, Piece.text] using escape_ascii ok)
  | hex first second third fourth ok =>
    left
    have := hex_ascii ok.1
    have := hex_ascii ok.2.1
    have := hex_ascii ok.2.2.1
    have := hex_ascii ok.2.2.2
    simp only [Ascii, Piece.text, List.mem_cons, List.not_mem_nil, or_false]
    rintro code (rfl | rfl | rfl | rfl | rfl | rfl) <;> omega

/-- A piece takes no more than the six octets of an escape in hexadecimal. -/
theorem Piece.encode_length (piece : Piece) : (encode piece.text).length ≤ 6 := by
  rcases piece.ascii_or with ascii | ⟨code, ok, rfl, _⟩
  · rw [encode_ascii ascii]
    cases piece <;> simp [Piece.text]
  · have one : encode (Piece.plain code ok).text = encodeOne code := by simp [Piece.text]
    rw [one, encodeOne]
    split_ifs <;> simp

theorem encode_content_length (codes : List Piece) :
    (encode (content codes)).length ≤ 6 * codes.length := by
  induction codes with
  | nil => exact le_rfl
  | cons piece codes inductionHypothesis =>
    have one := piece.encode_length
    rw [content_cons, encode_append, List.length_append, List.length_cons]
    omega

/-- A string of code points is spelled in octets. -/
theorem exists_octets (codes : List Piece) :
    ∃ octets, content octets = encode (content codes) := by
  induction codes with
  | nil => exact ⟨[], rfl⟩
  | cons piece codes inductionHypothesis =>
    obtain ⟨octets, same⟩ := inductionHypothesis
    rcases piece.ascii_or with ascii | ⟨code, ok, rfl, wide⟩
    · refine ⟨piece :: octets, ?_⟩
      rw [content_cons, content_cons, encode_append, encode_ascii ascii, same]
    · obtain ⟨first, spelled⟩ := exists_plain fun octet member =>
        plain_of_wide ((encodeOne_wide wide).2 octet member)
      refine ⟨first ++ octets, ?_⟩
      rw [content_append, spelled, same, content_cons, encode_append]
      simp [Piece.text]

/-- A string spelled in octets is one of code points. -/
theorem exists_codes (octets : List Piece) {chars rest : List Nat}
    (same : encode chars = content octets ++ 0x22 :: rest) :
    ∃ codes later, content octets = encode (content codes) ∧
      chars = content codes ++ 0x22 :: later ∧ encode later = rest := by
  induction size : chars.length using Nat.strong_induction_on generalizing chars octets with
  | _ size inductionHypothesis =>
    cases octets with
    | nil =>
      obtain ⟨later, rfl, left⟩ := @encode_split [0x22] _ _ (by decide) same
      exact ⟨[], later, rfl, rfl, left⟩
    | cons piece octets =>
      rcases piece.ascii_or with ascii | ⟨code, ok, rfl, wide⟩
      · rw [content_cons, List.append_assoc] at same
        obtain ⟨between, rfl, left⟩ := encode_split ascii same
        have positive : 0 < piece.text.length := by cases piece <;> simp [Piece.text]
        obtain ⟨codes, later, spelled, rfl, last⟩ := inductionHypothesis between.length
          (by rw [← size, List.length_append]; omega) octets left rfl
        refine ⟨piece :: codes, later, ?_, ?_, last⟩
        · rw [content_cons, content_cons, encode_append, encode_ascii ascii, spelled]
        · rw [content_cons, List.append_assoc]
      · cases chars with
        | nil => cases same
        | cons char chars =>
          have wider : 0x80 ≤ char := by
            by_contra narrow
            rw [encode_cons, encodeOne_ascii (not_le.mp narrow)] at same
            have := (List.cons.inj same).1
            omega
          obtain ⟨left, split, rests⟩ := content_split
            (fun octet member => plain_of_wide ((encodeOne_wide wider).2 octet member)) same.symm
          obtain ⟨codes, later, spelled, rfl, last⟩ := inductionHypothesis chars.length
            (by rw [← size, List.length_cons]; omega) left rests rfl
          refine ⟨.plain char (plain_of_wide wider) :: codes, later, ?_, rfl, last⟩
          rw [split, spelled, content_cons, encode_append]
          simp [Piece.text]

/-! ### Trees -/

/-- A head in code points and in octets. -/
inductive HeadEncodes : {kind : Kind} → Head kind → Head kind → Prop
  | item (pad : Blank) : HeadEncodes (.item pad) (.item pad)
  | member (pad : Blank) {codes octets : List Piece} (gap lead : Blank)
    (spelled : content octets = encode (content codes)) :
    HeadEncodes (.member pad codes gap lead) (.member pad octets gap lead)

mutual
/-- A value in code points and in octets. -/
inductive Encodes : Value → Value → Prop
  | literal (which : Literal) : Encodes (.literal which) (.literal which)
  | number (number : Number) : Encodes (.number number) (.number number)
  | string {codes octets : List Piece} (spelled : content octets = encode (content codes)) :
    Encodes (.string codes) (.string octets)
  | empty (kind : Kind) (pad : Blank) : Encodes (.empty kind pad) (.empty kind pad)
  | full {kind : Kind} {head head' : Head kind} {value value' : Value} {tail tail' : Tail kind}
    (heads : HeadEncodes head head') (values : Encodes value value')
    (tails : TailEncodes tail tail') :
    Encodes (.full kind head value tail) (.full kind head' value' tail')

/-- A tail in code points and in octets. -/
inductive TailEncodes : {kind : Kind} → Tail kind → Tail kind → Prop
  | close {kind : Kind} (pad : Blank) :
    TailEncodes (.close pad : Tail kind) (.close pad)
  | more {kind : Kind} (pad : Blank) {head head' : Head kind} {value value' : Value}
    {tail tail' : Tail kind} (heads : HeadEncodes head head') (values : Encodes value value')
    (tails : TailEncodes tail tail') :
    TailEncodes (.more pad head value tail) (.more pad head' value' tail')
end

theorem HeadEncodes.text {kind : Kind} {head head' : Head kind} (encodes : HeadEncodes head head') :
    head'.text = encode head.text := by
  cases encodes with
  | item pad => exact (encode_ascii pad.ascii).symm
  | member pad gap lead spelled =>
    simp only [Head.text, quoted, encode_append, encode_ascii pad.ascii,
      encode_ascii gap.ascii, encode_cons, encode_ascii lead.ascii, spelled]
    rfl

mutual
/-- The octets of a tree encode its code points. -/
theorem Encodes.text : {codes octets : Value} → Encodes codes octets →
    octets.text = encode codes.text
  | _, _, .literal which => (encode_ascii which.ascii).symm
  | _, _, .number number => (encode_ascii number.ascii).symm
  | _, _, .string spelled => by
    simp only [Value.text, quoted, encode_cons, encode_append, spelled]
    rfl
  | _, _, .empty kind pad => by
    simp only [Value.text, encode_cons, encode_append, encode_ascii pad.ascii,
      encodeOne_ascii kind.opener_ascii, encodeOne_ascii kind.closer_ascii]
    rfl
  | _, _, @Encodes.full kind _ _ _ _ _ _ heads values tails => by
    simp only [Value.text, encode_cons, encode_append, encodeOne_ascii kind.opener_ascii,
      heads.text, values.text, tails.text]
    rfl

theorem TailEncodes.text : {kind : Kind} → {tail tail' : Tail kind} → TailEncodes tail tail' →
    tail'.text = encode tail.text
  | kind, _, _, .close pad => by
    simp only [Tail.text, encode_append, encode_ascii pad.ascii, encode_cons,
      encodeOne_ascii kind.closer_ascii]
    rfl
  | _, _, _, .more pad heads values tails => by
    simp only [Tail.text, encode_cons, encode_append, encode_ascii pad.ascii, heads.text,
      values.text, tails.text]
    rfl
end

mutual
theorem Encodes.depth : {codes octets : Value} → Encodes codes octets → octets.depth = codes.depth
  | _, _, .literal _ | _, _, .number _ | _, _, .string _ | _, _, .empty _ _ => rfl
  | _, _, .full _ values tails => by simp only [Value.depth, values.depth, tails.depth]

theorem TailEncodes.depth : {kind : Kind} → {tail tail' : Tail kind} → TailEncodes tail tail' →
    tail'.depth = tail.depth
  | _, _, _, .close _ => rfl
  | _, _, _, .more _ _ values tails => by simp only [Tail.depth, values.depth, tails.depth]
end

mutual
/-- The numbers of a tree are the same in octets and in code points. -/
theorem Encodes.numbers {holds : Number → Prop} : {codes octets : Value} → Encodes codes octets →
    (octets.Numbers holds ↔ codes.Numbers holds)
  | _, _, .literal _ | _, _, .number _ | _, _, .string _ | _, _, .empty _ _ => Iff.rfl
  | _, _, .full _ values tails => and_congr values.numbers tails.numbers

theorem TailEncodes.numbers {holds : Number → Prop} : {kind : Kind} → {tail tail' : Tail kind} →
    TailEncodes tail tail' → (tail'.Numbers holds ↔ tail.Numbers holds)
  | _, _, _, .close _ => Iff.rfl
  | _, _, _, .more _ _ values tails => and_congr values.numbers tails.numbers
end

/-! ### Counterparts -/

theorem exists_head_octets {kind : Kind} (head : Head kind) :
    ∃ head', HeadEncodes head head' := by
  cases head with
  | item pad => exact ⟨_, .item pad⟩
  | member pad codes gap lead =>
    obtain ⟨octets, spelled⟩ := exists_octets codes
    exact ⟨_, .member pad gap lead spelled⟩

mutual
/-- A tree in code points has one in octets. -/
theorem exists_value_octets : (codes : Value) → ∃ octets, Encodes codes octets
  | .literal which => ⟨_, .literal which⟩
  | .number number => ⟨_, .number number⟩
  | .string codes =>
    let ⟨_, spelled⟩ := exists_octets codes
    ⟨_, .string spelled⟩
  | .empty kind pad => ⟨_, .empty kind pad⟩
  | .full _ head value tail =>
    let ⟨_, heads⟩ := exists_head_octets head
    let ⟨_, values⟩ := exists_value_octets value
    let ⟨_, tails⟩ := exists_tail_octets tail
    ⟨_, .full heads values tails⟩

theorem exists_tail_octets {kind : Kind} : (tail : Tail kind) → ∃ tail', TailEncodes tail tail'
  | .close pad => ⟨_, .close pad⟩
  | .more pad head value tail =>
    let ⟨_, heads⟩ := exists_head_octets head
    let ⟨_, values⟩ := exists_value_octets value
    let ⟨_, tails⟩ := exists_tail_octets tail
    ⟨_, .more pad heads values tails⟩
end

theorem exists_head_codes {kind : Kind} (head' : Head kind) {chars rest : List Nat}
    (same : encode chars = head'.text ++ rest) :
    ∃ head later, HeadEncodes head head' ∧ chars = head.text ++ later ∧ encode later = rest := by
  cases head' with
  | item pad =>
    obtain ⟨later, rfl, left⟩ := encode_split pad.ascii same
    exact ⟨.item pad, later, .item pad, rfl, left⟩
  | member pad octets gap lead =>
    have split : Head.text (.member pad octets gap lead) ++ rest = (pad.codes ++ [0x22]) ++
        (content octets ++ 0x22 :: (gap.codes ++ [0x3A] ++ lead.codes ++ rest)) := by
      simp [Head.text, quoted]
    rw [split] at same
    obtain ⟨opened, rfl, left⟩ := encode_split (pad.ascii.append (by decide)) same
    obtain ⟨codes, closed, spelled, rfl, last⟩ := exists_codes octets left
    obtain ⟨later, rfl, done⟩ :=
      encode_split ((gap.ascii.append (by decide)).append lead.ascii) last
    exact ⟨.member pad codes gap lead, later, .member pad gap lead spelled,
      by simp [Head.text, quoted], done⟩

mutual
/-- A tree in octets, of a text that is an encoding, has one in code points. -/
theorem exists_value_codes : (octets : Value) → {chars rest : List Nat} →
    encode chars = octets.text ++ rest →
    ∃ codes later, Encodes codes octets ∧ chars = codes.text ++ later ∧ encode later = rest
  | .literal which, _, _, same => by
    obtain ⟨later, rfl, left⟩ := encode_split which.ascii same
    exact ⟨_, later, .literal which, rfl, left⟩
  | .number number, _, _, same => by
    obtain ⟨later, rfl, left⟩ := encode_split number.ascii same
    exact ⟨_, later, .number number, rfl, left⟩
  | .string octets, _, rest, same => by
    have split : Value.text (.string octets) ++ rest = [0x22] ++ (content octets ++ 0x22 :: rest) := by
      simp [Value.text, quoted]
    rw [split] at same
    obtain ⟨opened, rfl, left⟩ := @encode_split [0x22] _ _ (by decide) same
    obtain ⟨codes, later, spelled, rfl, last⟩ := exists_codes octets left
    exact ⟨.string codes, later, .string spelled, by simp [Value.text, quoted], last⟩
  | .empty kind pad, _, _, same => by
    have ascii : Ascii (Value.text (.empty kind pad)) :=
      List.forall_mem_cons.mpr ⟨kind.opener_ascii, pad.ascii.append
        (List.forall_mem_singleton.mpr kind.closer_ascii)⟩
    obtain ⟨later, rfl, left⟩ := encode_split ascii same
    exact ⟨_, later, .empty kind pad, rfl, left⟩
  | .full kind head' value' tail', _, rest, same => by
    have split : Value.text (.full kind head' value' tail') ++ rest =
        [kind.opener] ++ (head'.text ++ (value'.text ++ (tail'.text ++ rest))) := by
      simp [Value.text]
    rw [split] at same
    obtain ⟨opened, rfl, left⟩ :=
      encode_split (List.forall_mem_singleton.mpr kind.opener_ascii) same
    obtain ⟨head, headed, heads, rfl, left'⟩ := exists_head_codes head' left
    obtain ⟨value, valued, values, rfl, left''⟩ := exists_value_codes value' left'
    obtain ⟨tail, later, tails, rfl, last⟩ := exists_tail_codes tail' left''
    exact ⟨_, later, .full heads values tails, by simp [Value.text], last⟩

theorem exists_tail_codes {kind : Kind} : (tail' : Tail kind) → {chars rest : List Nat} →
    encode chars = tail'.text ++ rest →
    ∃ tail later, TailEncodes tail tail' ∧ chars = tail.text ++ later ∧ encode later = rest
  | .close pad, _, _, same => by
    have ascii : Ascii (Tail.text (.close pad : Tail kind)) :=
      pad.ascii.append (List.forall_mem_singleton.mpr kind.closer_ascii)
    obtain ⟨later, rfl, left⟩ := encode_split ascii same
    exact ⟨_, later, .close pad, rfl, left⟩
  | .more pad head' value' tail', _, rest, same => by
    have split : Tail.text (.more pad head' value' tail') ++ rest =
        (pad.codes ++ [0x2C]) ++ (head'.text ++ (value'.text ++ (tail'.text ++ rest))) := by
      simp [Tail.text]
    rw [split] at same
    obtain ⟨opened, rfl, left⟩ := encode_split (pad.ascii.append (by decide)) same
    obtain ⟨head, headed, heads, rfl, left'⟩ := exists_head_codes head' left
    obtain ⟨value, valued, values, rfl, left''⟩ := exists_value_codes value' left'
    obtain ⟨tail, later, tails, rfl, last⟩ := exists_tail_codes tail' left''
    exact ⟨_, later, .more pad heads values tails, by simp [Tail.text], last⟩
end

end JsonText
