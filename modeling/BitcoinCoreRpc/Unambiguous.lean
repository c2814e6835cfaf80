/-
This file proves that the grammar is unambiguous, as a library.

A value is told by its first code to be what it is, every token ends where its own reader
stops, and white space is all there is between two tokens. So two trees that a text begins
with are one tree, and leave the same rest.
-/

import BitcoinCoreRpc.Loads

namespace BitcoinCoreRpc

open JsonText

/-- What the first code of a value tells it to be. -/
inductive Shape
  | literal
  | number
  | string
  | container (kind : Kind)
deriving DecidableEq

def shapeOf (code : Nat) : Shape :=
  if code = 0x22 then .string
  else if code = 0x5B then .container .array
  else if code = 0x7B then .container .object
  else if code = 0x2D || isDigit code then .number
  else .literal

def valueShape : Value → Shape
  | .literal _ => .literal
  | .number _ => .number
  | .string _ => .string
  | .empty kind _ | .full kind _ _ _ => .container kind

theorem shapeOf_digit {code : Nat} (digit : isDigit code = true) : shapeOf code = .number := by
  have bounds := digit
  simp only [isDigit, Bool.and_eq_true, decide_eq_true_eq] at bounds
  unfold shapeOf
  rw [if_neg (by omega), if_neg (by omega), if_neg (by omega), if_pos (by simp [digit])]

theorem shapeOf_value (value : Value) (rest : List Nat) :
    (value.text ++ rest).head?.map shapeOf = some (valueShape value) := by
  cases value with
  | literal which => cases which <;> rfl
  | number number =>
    obtain ⟨code, more, text, first⟩ := number.text_eq_cons
    rw [Value.text, text]
    rcases first with rfl | digit
    · rfl
    · exact congrArg some (shapeOf_digit digit)
  | string pieces => rfl
  | empty kind pad => cases kind <;> rfl
  | full kind head value tail => cases kind <;> rfl

theorem blank_inj {first second : Blank} (same : first.codes = second.codes) : first = second := by
  obtain ⟨codes, blank⟩ := first
  obtain ⟨codes', blank'⟩ := second
  cases same
  rfl

variable {rest other : List Nat}

/-- White space, and nothing behind it, carries no number on. -/
theorem delimits_pad (pad : Blank) : Delimits pad.codes := by
  have ends := @delimits_blank pad 0x2C [] rfl
  intro code first
  refine ends code ?_
  rw [List.head?_append, Option.mem_def.mp first]
  rfl

theorem number_unique {first second : Number} (delimits : Delimits rest) (delimits' : Delimits other)
    (same : first.text ++ rest = second.text ++ other) : first = second ∧ rest = other := by
  have found := matchNumber_append first delimits
  rw [same, matchNumber_append second delimits'] at found
  cases found
  exact ⟨rfl, rfl⟩

theorem quoted_unique {first second : List Piece}
    (same : quoted first ++ rest = quoted second ++ other) : first = second ∧ rest = other := by
  simp only [quoted, List.cons_append, List.append_assoc, List.cons.injEq, true_and,
    List.nil_append] at same
  have found := matchPieces_append first rest
  rw [same, matchPieces_append] at found
  cases found
  exact ⟨rfl, rfl⟩

theorem pad_unique {first second : Blank} (solid : NoBlank rest) (solid' : NoBlank other)
    (same : first.codes ++ rest = second.codes ++ other) : first = second ∧ rest = other := by
  obtain ⟨codes, rests⟩ := blank_unique solid solid' same
  exact ⟨blank_inj codes, rests⟩

theorem head_unique {kind : Kind} {first second : Head kind} (solid : NoBlank rest)
    (solid' : NoBlank other) (same : first.text ++ rest = second.text ++ other) :
    first = second ∧ rest = other := by
  cases first with
  | item pad =>
    cases second with
    | item pad' =>
      obtain ⟨rfl, rfl⟩ := pad_unique solid solid' same
      exact ⟨rfl, rfl⟩
  | member pad name gap lead =>
    cases second with
    | member pad' name' gap' lead' =>
      simp only [Head.text, List.append_assoc, List.cons_append] at same
      obtain ⟨rfl, names⟩ := pad_unique (noBlank_cons rfl) (noBlank_cons rfl) same
      obtain ⟨rfl, gaps⟩ := quoted_unique names
      obtain ⟨rfl, colons⟩ := pad_unique (noBlank_cons rfl) (noBlank_cons rfl) gaps
      obtain ⟨rfl, rfl⟩ := pad_unique solid solid' (List.cons.inj colons).2
      exact ⟨rfl, rfl⟩

/-- An empty container is not one with a slot. -/
theorem empty_ne_full {kind : Kind} (pad : Blank) (head : Head kind) (value : Value)
    (same : pad.codes ++ ([kind.closer] ++ rest) = head.text ++ value.text ++ other) : False := by
  have closes : NoBlank ([kind.closer] ++ rest) := noBlank_cons (by cases kind <;> rfl)
  refine head_ne_closer head value other ?_
  rw [← same, dropBlank_append pad closes]
  rfl

mutual
/-- Two values a text begins with are one, and leave the same rest. -/
theorem value_unique : (first second : Value) → {rest other : List Nat} → Delimits rest →
    Delimits other → first.text ++ rest = second.text ++ other → first = second ∧ rest = other := by
  intro first second rest other delimits delimits' same
  have shapes : valueShape first = valueShape second := by
    have tells := shapeOf_value first rest
    rw [same, shapeOf_value] at tells
    exact (Option.some.inj tells).symm
  cases first with
  | literal which =>
    cases second with
    | literal which' =>
      have found := matchLiteral_append which rest
      have whole : which.text ++ rest = which'.text ++ other := same
      rw [whole, matchLiteral_append] at found
      cases found
      exact ⟨rfl, rfl⟩
    | _ => cases shapes
  | number number =>
    cases second with
    | number number' =>
      obtain ⟨rfl, rfl⟩ := number_unique delimits delimits' same
      exact ⟨rfl, rfl⟩
    | _ => cases shapes
  | string pieces =>
    cases second with
    | string pieces' =>
      obtain ⟨rfl, rfl⟩ := quoted_unique same
      exact ⟨rfl, rfl⟩
    | _ => cases shapes
  | empty kind pad =>
    cases second with
    | empty kind' pad' =>
      cases shapes
      simp only [Value.text, List.cons_append, List.append_assoc, List.cons.injEq, true_and] at same
      have closes (rest : List Nat) : NoBlank ([kind.closer] ++ rest) :=
        noBlank_cons (by cases kind <;> rfl)
      obtain ⟨rfl, ends⟩ := pad_unique (closes rest) (closes other) same
      exact ⟨rfl, List.append_cancel_left ends⟩
    | full kind' head value tail =>
      cases shapes
      simp only [Value.text, List.cons_append, List.append_assoc, List.cons.injEq, true_and] at same
      exact (empty_ne_full pad head value (by simpa using same)).elim
    | _ => cases shapes
  | full kind head value tail =>
    cases second with
    | empty kind' pad' =>
      cases shapes
      simp only [Value.text, List.cons_append, List.append_assoc, List.cons.injEq, true_and] at same
      exact (empty_ne_full pad' head value (by simpa using same.symm)).elim
    | full kind' head' value' tail' =>
      cases shapes
      simp only [Value.text, List.cons_append, List.append_assoc, List.cons.injEq, true_and] at same
      obtain ⟨rfl, values⟩ := head_unique (noBlank_value value _) (noBlank_value value' _) same
      obtain ⟨rfl, tails⟩ :=
        value_unique value value' (delimits_tail tail rest) (delimits_tail tail' other) values
      obtain ⟨rfl, rfl⟩ := tail_unique tail tail' tails
      exact ⟨rfl, rfl⟩
    | _ => cases shapes

theorem tail_unique {kind : Kind} : (first second : Tail kind) → {rest other : List Nat} →
    first.text ++ rest = second.text ++ other → first = second ∧ rest = other := by
  intro first second rest other same
  have closes (rest : List Nat) : NoBlank ([kind.closer] ++ rest) :=
    noBlank_cons (by cases kind <;> rfl)
  have closer : kind.closer ≠ 0x2C := by cases kind <;> decide
  cases first with
  | close pad =>
    cases second with
    | close pad' =>
      simp only [Tail.text, List.append_assoc] at same
      obtain ⟨rfl, ends⟩ := pad_unique (closes rest) (closes other) same
      exact ⟨rfl, List.append_cancel_left ends⟩
    | more pad' head value tail =>
      simp only [Tail.text, List.append_assoc, List.cons_append] at same
      obtain ⟨_, ends⟩ := pad_unique (closes rest) (noBlank_cons rfl) same
      exact absurd (List.cons.inj ends).1 closer
  | more pad head value tail =>
    cases second with
    | close pad' =>
      simp only [Tail.text, List.append_assoc, List.cons_append] at same
      obtain ⟨_, ends⟩ := pad_unique (noBlank_cons rfl) (closes other) same
      exact absurd (List.cons.inj ends).1.symm closer
    | more pad' head' value' tail' =>
      simp only [Tail.text, List.append_assoc, List.cons_append] at same
      obtain ⟨rfl, commas⟩ := pad_unique (noBlank_cons rfl) (noBlank_cons rfl) same
      obtain ⟨rfl, values⟩ :=
        head_unique (noBlank_value value _) (noBlank_value value' _) (List.cons.inj commas).2
      obtain ⟨rfl, tails⟩ :=
        value_unique value value' (delimits_tail tail rest) (delimits_tail tail' other) values
      obtain ⟨rfl, rfl⟩ := tail_unique tail tail' tails
      exact ⟨rfl, rfl⟩
end

end BitcoinCoreRpc
