/-
This file is the UTF-8 encoding form, as a library.

A decoder reads one octet at a time: between two characters it is at `start`, and
inside one it knows what the octets read so far stand for, what the next octet may
be and how many follow that. The automaton is therefore incremental by construction,
and a sequence cut anywhere is decoded by running it over the pieces in turn. The
surrogate code points are admitted or refused by a flag, which is the whole
difference between a strict decoder and one that passes them through.

The result every other file uses is that decoding inverts encoding exactly: a text
decodes to a list of code points if and only if it is the encoding of that list and
the code points are ones the flag admits.
-/

import Mathlib

namespace Utf8

/-! ### The decoder -/

/-- Where the decoder stands between two octets: between two characters, or inside one
whose octets so far stand for `acc`, with the next octet in `[low, high]` and `more`
octets after it. -/
inductive State
  | start
  | tail (acc low high more : Nat)
deriving DecidableEq

/-- The first octet of a character. -/
def lead (surrogates : Bool) (octet : Nat) : Option (State × List Nat) :=
  if octet < 0x80 then some (.start, [octet])
  else if octet < 0xC2 then none
  else if octet < 0xE0 then some (.tail (octet - 0xC0) 0x80 0xBF 0, [])
  else if octet = 0xE0 then some (.tail 0 0xA0 0xBF 1, [])
  else if octet = 0xED then some (.tail 0xD 0x80 (if surrogates then 0xBF else 0x9F) 1, [])
  else if octet < 0xF0 then some (.tail (octet - 0xE0) 0x80 0xBF 1, [])
  else if octet = 0xF0 then some (.tail 0 0x90 0xBF 2, [])
  else if octet < 0xF4 then some (.tail (octet - 0xF0) 0x80 0xBF 2, [])
  else if octet = 0xF4 then some (.tail 4 0x80 0x8F 2, [])
  else none

/-- One octet: the state after it and the character it ends, if any. -/
def step (surrogates : Bool) : State → Nat → Option (State × List Nat)
  | .start, octet => lead surrogates octet
  | .tail acc low high more, octet =>
    if low ≤ octet ∧ octet ≤ high then
      match more with
      | 0 => some (.start, [acc * 64 + (octet - 0x80)])
      | left + 1 => some (.tail (acc * 64 + (octet - 0x80)) 0x80 0xBF left, [])
    else none

/-- The state after a sequence of octets, and the characters they end. -/
def run (surrogates : Bool) : State → List Nat → Option (State × List Nat)
  | state, [] => some (state, [])
  | state, octet :: rest => do
    let (next, ended) ← step surrogates state octet
    let (last, more) ← run surrogates next rest
    return (last, ended ++ more)

/-- The code points a whole text stands for, if it is well formed. -/
def decode (surrogates : Bool) (octets : List Nat) : Option (List Nat) :=
  match run surrogates .start octets with
  | some (.start, codes) => some codes
  | _ => none

/-- From `state`, the octets finish the pending character and are well formed after it. -/
def Accepts (state : State) (octets : List Nat) : Prop :=
  ∃ codes, run false state octets = some (.start, codes)

instance (state : State) (octets : List Nat) : Decidable (Accepts state octets) :=
  decidable_of_iff ((run false state octets).map Prod.fst = some .start) <| by
    simp only [Accepts, Option.map_eq_some_iff, Prod.exists]
    exact ⟨fun ⟨_, codes, ran, start⟩ => ⟨codes, start ▸ ran⟩, fun ⟨codes, ran⟩ => ⟨_, codes, ran, rfl⟩⟩

theorem run_append (surrogates : Bool) (state : State) (first second : List Nat) :
    run surrogates state (first ++ second) =
      (run surrogates state first).bind fun (middle, codes) =>
        (run surrogates middle second).map fun (last, more) => (last, codes ++ more) := by
  induction first generalizing state with
  | nil =>
    simp only [List.nil_append, run, Option.bind_some]
    cases run surrogates state second <;> rfl
  | cons octet rest inductionHypothesis =>
    simp only [List.cons_append, run]
    cases step surrogates state octet with
    | none => rfl
    | some next =>
      obtain ⟨next, ended⟩ := next
      simp only [Option.bind_eq_bind, Option.bind_some, inductionHypothesis]
      cases run surrogates next rest with
      | none => rfl
      | some middle =>
        obtain ⟨middle, codes⟩ := middle
        cases ran : run surrogates middle second <;> simp [ran]

/-- Octets already run over leave the rest accepted from where they stopped. -/
theorem accepts_append {state middle : State} {first second codes : List Nat}
    (ran : run false state first = some (middle, codes)) :
    Accepts state (first ++ second) ↔ Accepts middle second := by
  simp only [Accepts, run_append, ran, Option.bind_some, Option.map_eq_some_iff, Prod.mk.injEq,
    Prod.exists]
  constructor
  · rintro ⟨_, _, more, ran, rfl, _⟩
    exact ⟨more, ran⟩
  · rintro ⟨more, ran⟩
    exact ⟨codes ++ more, .start, more, ran, rfl, rfl⟩

/-- A sequence accepted to its end runs over each of its prefixes. -/
theorem Accepts.run_prefix {state : State} {first second : List Nat}
    (accepted : Accepts state (first ++ second)) :
    ∃ middle codes, run false state first = some (middle, codes) := by
  obtain ⟨_, ran⟩ := accepted
  rw [run_append] at ran
  cases head : run false state first with
  | none =>
    rw [head] at ran
    cases ran
  | some middle => exact ⟨middle.1, middle.2, rfl⟩

theorem accepts_nil {state : State} : Accepts state [] ↔ state = .start := by
  simp [Accepts, run]

/-! ### The encoder -/

/-- The octets of one code point. -/
def encodeOne (code : Nat) : List Nat :=
  if code < 0x80 then [code]
  else if code < 0x800 then [0xC0 + code / 64, 0x80 + code % 64]
  else if code < 0x10000 then
    [0xE0 + code / 4096, 0x80 + code / 64 % 64, 0x80 + code % 64]
  else
    [0xF0 + code / 262144, 0x80 + code / 4096 % 64, 0x80 + code / 64 % 64, 0x80 + code % 64]

/-- The octets of a text. -/
def encode (codes : List Nat) : List Nat :=
  codes.flatMap encodeOne

/-- A code point the flag admits. -/
def Admits (surrogates : Bool) (code : Nat) : Prop :=
  code < 0x110000 ∧ (surrogates = true ∨ code < 0xD800 ∨ 0xE000 ≤ code)

/-- A Unicode scalar value: a code point that is no surrogate. -/
abbrev IsScalar (code : Nat) : Prop := Admits false code

@[simp] theorem encode_nil : encode [] = [] := rfl

@[simp] theorem encode_cons (code : Nat) (codes : List Nat) :
    encode (code :: codes) = encodeOne code ++ encode codes := rfl

@[simp] theorem encode_append (first second : List Nat) :
    encode (first ++ second) = encode first ++ encode second :=
  List.flatMap_append

theorem encodeOne_ne_nil (code : Nat) : encodeOne code ≠ [] := by
  unfold encodeOne
  split_ifs <;> simp

theorem encode_eq_nil {codes : List Nat} : encode codes = [] ↔ codes = [] := by
  cases codes with
  | nil => simp
  | cons code rest => simp [encodeOne_ne_nil]

theorem encodeOne_ascii {code : Nat} (ascii : code < 0x80) : encodeOne code = [code] :=
  if_pos ascii

theorem encode_ascii {codes : List Nat} (ascii : ∀ code ∈ codes, code < 0x80) :
    encode codes = codes := by
  induction codes with
  | nil => rfl
  | cons code rest inductionHypothesis =>
    rw [encode_cons, encodeOne_ascii (ascii code List.mem_cons_self),
      inductionHypothesis fun other member => ascii other (List.mem_cons_of_mem _ member)]
    rfl

/-- A code point past ASCII is written with octets past ASCII alone. -/
theorem encodeOne_wide {code : Nat} (wide : 0x80 ≤ code) :
    encodeOne code ≠ [] ∧ ∀ octet ∈ encodeOne code, 0x80 ≤ octet := by
  unfold encodeOne
  split_ifs <;> simp <;> omega

/-- An ASCII octet at the head of an encoded text is a character of its own. -/
theorem encode_eq_ascii_cons {codes rest : List Nat} {octet : Nat} (ascii : octet < 0x80)
    (encoded : encode codes = octet :: rest) :
    ∃ more, codes = octet :: more ∧ encode more = rest := by
  cases codes with
  | nil => cases encoded
  | cons code more =>
    rw [encode_cons] at encoded
    by_cases narrow : code < 0x80
    · rw [encodeOne_ascii narrow] at encoded
      obtain ⟨rfl, rest⟩ := List.cons.inj encoded
      exact ⟨more, rfl, rest⟩
    · obtain ⟨nonempty, wide⟩ := @encodeOne_wide code (by omega)
      obtain ⟨first, others, split⟩ := List.exists_cons_of_ne_nil nonempty
      rw [split, List.cons_append] at encoded
      have same := (List.cons.inj encoded).1
      have := wide first (by rw [split]; exact List.mem_cons_self)
      omega

/-! ### Decoding inverts encoding -/

/-- What the first octet of a character can be, and where each leaves the decoder. -/
theorem lead_cases {surrogates : Bool} {octet : Nat} {next : State} {ended : List Nat}
    (led : lead surrogates octet = some (next, ended)) :
    (octet < 0x80 ∧ next = .start ∧ ended = [octet]) ∨
    (0xC2 ≤ octet ∧ octet < 0xE0 ∧ next = .tail (octet - 0xC0) 0x80 0xBF 0 ∧ ended = []) ∨
    (∃ low high, 0xE0 ≤ octet ∧ octet < 0xF0 ∧ 0x80 ≤ low ∧ high ≤ 0xBF ∧
      (octet = 0xE0 → 0xA0 ≤ low) ∧ (octet = 0xED → surrogates = true ∨ high ≤ 0x9F) ∧
      next = .tail (octet - 0xE0) low high 1 ∧ ended = []) ∨
    (∃ low high, 0xF0 ≤ octet ∧ octet ≤ 0xF4 ∧ 0x80 ≤ low ∧ high ≤ 0xBF ∧
      (octet = 0xF0 → 0x90 ≤ low) ∧ (octet = 0xF4 → high ≤ 0x8F) ∧
      next = .tail (octet - 0xF0) low high 2 ∧ ended = []) := by
  unfold lead at led
  split_ifs at led with ascii _ two e0 ed passed three f0 four f4 <;>
    simp only [Option.some.injEq, Prod.mk.injEq] at led <;>
    obtain ⟨rfl, rfl⟩ := led
  · exact .inl ⟨ascii, rfl, rfl⟩
  · exact .inr (.inl ⟨by omega, two, rfl, rfl⟩)
  · exact .inr (.inr (.inl ⟨0xA0, 0xBF, by omega, by omega, by omega, le_rfl, fun _ => le_rfl,
      by omega, by rw [e0], rfl⟩))
  · exact .inr (.inr (.inl ⟨0x80, 0xBF, by omega, by omega, le_rfl, le_rfl, by omega,
      fun _ => .inl passed, by rw [ed], rfl⟩))
  · exact .inr (.inr (.inl ⟨0x80, 0x9F, by omega, by omega, le_rfl, by omega, by omega,
      fun _ => .inr le_rfl, by rw [ed], rfl⟩))
  · exact .inr (.inr (.inl ⟨0x80, 0xBF, by omega, three, le_rfl, le_rfl, by omega, by omega,
      rfl, rfl⟩))
  · exact .inr (.inr (.inr ⟨0x90, 0xBF, by omega, by omega, by omega, le_rfl, fun _ => le_rfl,
      by omega, by rw [f0], rfl⟩))
  · exact .inr (.inr (.inr ⟨0x80, 0xBF, by omega, by omega, le_rfl, le_rfl, by omega, by omega,
      rfl, rfl⟩))
  · exact .inr (.inr (.inr ⟨0x80, 0x8F, by omega, by omega, le_rfl, by omega, by omega,
      fun _ => le_rfl, by rw [f4], rfl⟩))

theorem lead_ascii {surrogates : Bool} {octet : Nat} (ascii : octet < 0x80) :
    lead surrogates octet = some (.start, [octet]) :=
  if_pos ascii

theorem lead_two {surrogates : Bool} {octet : Nat} (lower : 0xC2 ≤ octet) (upper : octet < 0xE0) :
    lead surrogates octet = some (.tail (octet - 0xC0) 0x80 0xBF 0, []) := by
  unfold lead
  split_ifs <;> first | rfl | omega

/-- A three-octet lead admits every second octet that leads to an admitted code point. -/
theorem lead_three (surrogates : Bool) (octet second : Nat) (lower : 0xE0 ≤ octet)
    (upper : octet < 0xF0) (continuation : 0x80 ≤ second ∧ second ≤ 0xBF)
    (shortest : octet = 0xE0 → 0xA0 ≤ second)
    (surrogate : octet = 0xED → surrogates = true ∨ second ≤ 0x9F) :
    ∃ low high, lead surrogates octet = some (.tail (octet - 0xE0) low high 1, []) ∧
      low ≤ second ∧ second ≤ high := by
  unfold lead
  split_ifs with _ _ _ e0 ed passed <;> try omega
  · exact ⟨0xA0, 0xBF, by rw [e0], shortest e0, continuation.2⟩
  · exact ⟨0x80, 0xBF, by rw [ed], continuation⟩
  · exact ⟨0x80, 0x9F, by rw [ed], continuation.1, (surrogate ed).resolve_left passed⟩
  · exact ⟨0x80, 0xBF, rfl, continuation⟩

/-- A four-octet lead admits every second octet that leads to a code point. -/
theorem lead_four (surrogates : Bool) (octet second : Nat) (lower : 0xF0 ≤ octet)
    (upper : octet ≤ 0xF4) (continuation : 0x80 ≤ second ∧ second ≤ 0xBF)
    (shortest : octet = 0xF0 → 0x90 ≤ second) (largest : octet = 0xF4 → second ≤ 0x8F) :
    ∃ low high, lead surrogates octet = some (.tail (octet - 0xF0) low high 2, []) ∧
      low ≤ second ∧ second ≤ high := by
  unfold lead
  split_ifs with _ _ _ _ _ _ _ f0 _ f4 <;> try omega
  · exact ⟨0x90, 0xBF, by rw [f0], shortest f0, continuation.2⟩
  · exact ⟨0x80, 0xBF, rfl, continuation⟩
  · exact ⟨0x80, 0x8F, by rw [f4], continuation.1, largest f4⟩

theorem step_tail {surrogates : Bool} {acc low high more octet : Nat} (lower : low ≤ octet)
    (upper : octet ≤ high) :
    step surrogates (.tail acc low high (more + 1)) octet =
      some (.tail (acc * 64 + (octet - 0x80)) 0x80 0xBF more, []) := by
  simp only [step]
  rw [if_pos ⟨lower, upper⟩]

theorem step_last {surrogates : Bool} {acc low high octet : Nat} (lower : low ≤ octet)
    (upper : octet ≤ high) :
    step surrogates (.tail acc low high 0) octet =
      some (.start, [acc * 64 + (octet - 0x80)]) := by
  simp only [step]
  rw [if_pos ⟨lower, upper⟩]

/-- The octets of one admitted code point take the decoder from `start` back to it. -/
theorem run_encodeOne {surrogates : Bool} {code : Nat} (admitted : Admits surrogates code) :
    run surrogates .start (encodeOne code) = some (.start, [code]) := by
  obtain ⟨bounded, scalar⟩ := admitted
  unfold encodeOne
  split_ifs with ascii two three
  · simp [run, step, lead_ascii ascii]
  · have first : step surrogates .start (0xC0 + code / 64) = _ :=
      lead_two (by omega) (by omega)
    have second : step surrogates (.tail (0xC0 + code / 64 - 0xC0) 0x80 0xBF 0)
        (0x80 + code % 64) = _ := step_last (by omega) (by omega)
    have value : (0xC0 + code / 64 - 0xC0) * 64 + (0x80 + code % 64 - 0x80) = code := by omega
    rw [value] at second
    simp only [run, first, second, Option.bind_eq_bind, Option.bind_some]
    rfl
  · obtain ⟨low, high, first, lower, upper⟩ := lead_three surrogates
      (0xE0 + code / 4096) (0x80 + code / 64 % 64) (by omega) (by omega)
      (by omega) (by omega) fun ed => scalar.imp_right (by omega)
    rw [← show step surrogates .start (0xE0 + code / 4096) = lead surrogates _ from rfl] at first
    have second : step surrogates (.tail (0xE0 + code / 4096 - 0xE0) low high 1)
        (0x80 + code / 64 % 64) = _ := step_tail lower upper
    have third : step surrogates (.tail ((0xE0 + code / 4096 - 0xE0) * 64 +
        (0x80 + code / 64 % 64 - 0x80)) 0x80 0xBF 0) (0x80 + code % 64) = _ :=
      step_last (by omega) (by omega)
    have value : ((0xE0 + code / 4096 - 0xE0) * 64 + (0x80 + code / 64 % 64 - 0x80)) * 64 +
        (0x80 + code % 64 - 0x80) = code := by omega
    rw [value] at third
    simp only [run, first, second, third, Option.bind_eq_bind, Option.bind_some]
    rfl
  · obtain ⟨low, high, first, lower, upper⟩ := lead_four surrogates
      (0xF0 + code / 262144) (0x80 + code / 4096 % 64) (by omega) (by omega)
      (by omega) (by omega) (by omega)
    rw [← show step surrogates .start (0xF0 + code / 262144) = lead surrogates _ from rfl] at first
    have second : step surrogates (.tail (0xF0 + code / 262144 - 0xF0) low high 2)
        (0x80 + code / 4096 % 64) = _ := step_tail lower upper
    have third : step surrogates (.tail ((0xF0 + code / 262144 - 0xF0) * 64 +
        (0x80 + code / 4096 % 64 - 0x80)) 0x80 0xBF 1) (0x80 + code / 64 % 64) = _ :=
      step_tail (by omega) (by omega)
    have fourth : step surrogates (.tail (((0xF0 + code / 262144 - 0xF0) * 64 +
        (0x80 + code / 4096 % 64 - 0x80)) * 64 + (0x80 + code / 64 % 64 - 0x80)) 0x80 0xBF 0)
        (0x80 + code % 64) = _ := step_last (by omega) (by omega)
    have value : (((0xF0 + code / 262144 - 0xF0) * 64 + (0x80 + code / 4096 % 64 - 0x80)) * 64 +
        (0x80 + code / 64 % 64 - 0x80)) * 64 + (0x80 + code % 64 - 0x80) = code := by omega
    rw [value] at fourth
    simp only [run, first, second, third, fourth, Option.bind_eq_bind, Option.bind_some]
    rfl

theorem run_encode {surrogates : Bool} {codes : List Nat}
    (admitted : ∀ code ∈ codes, Admits surrogates code) :
    run surrogates .start (encode codes) = some (.start, codes) := by
  induction codes with
  | nil => rfl
  | cons code rest inductionHypothesis =>
    rw [encode_cons, run_append, run_encodeOne (admitted code List.mem_cons_self)]
    simp only [Option.bind_some]
    rw [inductionHypothesis fun other member => admitted other (List.mem_cons_of_mem _ member)]
    rfl

theorem run_eq_cons {surrogates : Bool} {state last : State} {octet : Nat} {rest codes : List Nat}
    (ran : run surrogates state (octet :: rest) = some (last, codes)) :
    ∃ next ended more, step surrogates state octet = some (next, ended) ∧
      run surrogates next rest = some (last, more) ∧ codes = ended ++ more := by
  simp only [run, Option.bind_eq_bind, Option.bind_eq_some_iff, Option.pure_def,
    Option.some.injEq, Prod.mk.injEq, Prod.exists] at ran
  obtain ⟨next, ended, stepped, last, more, after, rfl, rfl⟩ := ran
  exact ⟨next, ended, more, stepped, after, rfl⟩

/-- Inside a character the text goes on with an octet the state allows. -/
theorem run_tail {surrogates : Bool} {acc low high more : Nat} {octets codes : List Nat}
    (ran : run surrogates (.tail acc low high (more + 1)) octets = some (.start, codes)) :
    ∃ octet rest, octets = octet :: rest ∧ low ≤ octet ∧ octet ≤ high ∧
      run surrogates (.tail (acc * 64 + (octet - 0x80)) 0x80 0xBF more) rest =
        some (.start, codes) := by
  cases octets with
  | nil => simp [run] at ran
  | cons octet rest =>
    obtain ⟨next, ended, later, stepped, after, rfl⟩ := run_eq_cons ran
    simp only [step] at stepped
    split_ifs at stepped with inside
    simp only [Option.some.injEq, Prod.mk.injEq] at stepped
    obtain ⟨rfl, rfl⟩ := stepped
    exact ⟨octet, rest, rfl, inside.1, inside.2, after⟩

/-- The last octet of a character ends it. -/
theorem run_last {surrogates : Bool} {acc low high : Nat} {octets codes : List Nat}
    (ran : run surrogates (.tail acc low high 0) octets = some (.start, codes)) :
    ∃ octet rest later, octets = octet :: rest ∧ low ≤ octet ∧ octet ≤ high ∧
      codes = (acc * 64 + (octet - 0x80)) :: later ∧
        run surrogates .start rest = some (.start, later) := by
  cases octets with
  | nil => simp [run] at ran
  | cons octet rest =>
    obtain ⟨next, ended, later, stepped, after, rfl⟩ := run_eq_cons ran
    simp only [step] at stepped
    split_ifs at stepped with inside
    simp only [Option.some.injEq, Prod.mk.injEq] at stepped
    obtain ⟨rfl, rfl⟩ := stepped
    exact ⟨octet, rest, later, rfl, inside.1, inside.2, rfl, after⟩

/-- A nonempty text that decodes begins with the octets of an admitted code point. -/
theorem run_start {surrogates : Bool} {octet : Nat} {rest codes : List Nat}
    (ran : run surrogates .start (octet :: rest) = some (.start, codes)) :
    ∃ code later tail, Admits surrogates code ∧ codes = code :: later ∧
      octet :: rest = encodeOne code ++ tail ∧
        run surrogates .start tail = some (.start, later) := by
  obtain ⟨next, ended, later, stepped, after, rfl⟩ := run_eq_cons ran
  rcases lead_cases stepped with ⟨ascii, rfl, rfl⟩ | ⟨lower, upper, rfl, rfl⟩ |
    ⟨low, high, lower, upper, least, most, shortest, surrogate, rfl, rfl⟩ |
    ⟨low, high, lower, upper, least, most, shortest, largest, rfl, rfl⟩
  · exact ⟨octet, later, rest, ⟨by omega, by omega⟩, rfl, by rw [encodeOne_ascii ascii]; rfl,
      after⟩
  · obtain ⟨second, tail, later, rfl, above, below, rfl, last⟩ := run_last after
    refine ⟨_, later, tail, ⟨by omega, Or.inr (by omega)⟩, rfl, ?_, last⟩
    unfold encodeOne
    rw [if_neg (by omega), if_pos (by omega)]
    simp only [List.cons_append, List.nil_append, List.cons.injEq, and_true]
    omega
  · obtain ⟨second, tail, rfl, above, below, after⟩ := run_tail after
    obtain ⟨third, tail, later, rfl, above', below', rfl, last⟩ := run_last after
    refine ⟨_, later, tail, ⟨by omega, ?_⟩, rfl, ?_, last⟩
    · by_cases ed : octet = 0xED
      · exact (surrogate ed).imp_right (by omega)
      · exact Or.inr (by omega)
    · unfold encodeOne
      rw [if_neg (by omega), if_neg (by omega), if_pos (by omega)]
      simp only [List.cons_append, List.nil_append, List.cons.injEq, and_true]
      omega
  · obtain ⟨second, tail, rfl, above, below, after⟩ := run_tail after
    obtain ⟨third, tail, rfl, above', below', after⟩ := run_tail after
    obtain ⟨fourth, tail, later, rfl, above'', below'', rfl, last⟩ := run_last after
    refine ⟨_, later, tail, ⟨by omega, Or.inr (by omega)⟩, rfl, ?_, last⟩
    unfold encodeOne
    rw [if_neg (by omega), if_neg (by omega), if_neg (by omega)]
    simp only [List.cons_append, List.nil_append, List.cons.injEq, and_true]
    omega

theorem run_start_eq_encode {surrogates : Bool} (octets codes : List Nat)
    (ran : run surrogates .start octets = some (.start, codes)) :
    octets = encode codes ∧ ∀ code ∈ codes, Admits surrogates code := by
  induction bound : octets.length using Nat.strong_induction_on generalizing octets codes with
  | _ size inductionHypothesis =>
    cases octets with
    | nil =>
      simp only [run, Option.some.injEq, Prod.mk.injEq, true_and] at ran
      subst ran
      simp
    | cons octet rest =>
      obtain ⟨code, later, tail, admitted, rfl, split, ran⟩ := run_start ran
      have shorter : tail.length < size := by
        rw [← bound, split, List.length_append]
        have := List.length_pos_iff.mpr (encodeOne_ne_nil code)
        omega
      obtain ⟨rfl, rest⟩ := inductionHypothesis _ shorter tail later ran rfl
      exact ⟨split, by simpa using ⟨admitted, rest⟩⟩

/-- Decoding inverts encoding, and decodes nothing else. -/
theorem decode_eq_some_iff {surrogates : Bool} {octets codes : List Nat} :
    decode surrogates octets = some codes ↔
      octets = encode codes ∧ ∀ code ∈ codes, Admits surrogates code := by
  constructor
  · intro decoded
    unfold decode at decoded
    split at decoded
    · next ran =>
      cases decoded
      exact run_start_eq_encode octets codes ran
    · cases decoded
  · rintro ⟨rfl, admitted⟩
    rw [decode, run_encode admitted]

/-- What is encoded is octets. -/
theorem encode_lt {surrogates : Bool} {codes : List Nat}
    (admitted : ∀ code ∈ codes, Admits surrogates code) : ∀ octet ∈ encode codes, octet < 0x100 := by
  intro octet member
  obtain ⟨code, among, written⟩ := List.mem_flatMap.mp member
  have below := (admitted code among).1
  unfold encodeOne at written
  split_ifs at written <;> simp only [List.mem_cons, List.not_mem_nil, or_false] at written <;> omega

theorem accepts_start_iff {octets : List Nat} :
    Accepts .start octets ↔ ∃ codes, decode false octets = some codes := by
  constructor
  · rintro ⟨codes, ran⟩
    exact ⟨codes, by rw [decode, ran]⟩
  · rintro ⟨codes, decoded⟩
    obtain ⟨rfl, scalar⟩ := decode_eq_some_iff.mp decoded
    exact ⟨codes, run_encode scalar⟩

/-- What a strict decoder reads, one that passes surrogates reads alike. -/
theorem decode_of_strict {octets codes : List Nat} (decoded : decode false octets = some codes)
    (surrogates : Bool) : decode surrogates octets = some codes := by
  obtain ⟨rfl, scalar⟩ := decode_eq_some_iff.mp decoded
  exact decode_eq_some_iff.mpr ⟨rfl, fun code member =>
    ⟨(scalar code member).1, Or.inr ((scalar code member).2.resolve_left Bool.false_ne_true)⟩⟩

/-! ### Slices -/

/-- Inside a character, no octet the state allows is ASCII. -/
def State.Wide : State → Prop
  | .start => True
  | .tail _ low _ _ => 0x80 ≤ low

theorem step_wide {surrogates : Bool} {state next : State} {octet : Nat} {ended : List Nat}
    (stepped : step surrogates state octet = some (next, ended)) : next.Wide := by
  cases state with
  | start =>
    rcases lead_cases stepped with ⟨_, rfl, _⟩ | ⟨_, _, rfl, _⟩ |
      ⟨low, high, _, _, least, _, _, _, rfl, _⟩ | ⟨low, high, _, _, least, _, _, _, rfl, _⟩
    · trivial
    · exact le_rfl
    · exact least
    · exact least
  | tail acc low high more =>
    simp only [step] at stepped
    split_ifs at stepped
    cases more with
    | zero =>
      cases stepped
      trivial
    | succ more =>
      cases stepped
      exact le_rfl

theorem run_wide {surrogates : Bool} {state last : State} {octets codes : List Nat}
    (wide : state.Wide) (ran : run surrogates state octets = some (last, codes)) : last.Wide := by
  induction octets generalizing state codes with
  | nil =>
    cases ran
    exact wide
  | cons octet rest inductionHypothesis =>
    obtain ⟨next, _, _, stepped, after, _⟩ := run_eq_cons ran
    exact inductionHypothesis (step_wide stepped) after

/-- A character begins at an ASCII octet, and one ended before it. -/
theorem run_ascii {surrogates : Bool} {last : State} {front rest codes : List Nat} {octet : Nat}
    (ascii : octet < 0x80) (ran : run surrogates .start (front ++ octet :: rest) = some (last, codes)) :
    ∃ earlier later, run surrogates .start front = some (.start, earlier) ∧
      run surrogates .start (octet :: rest) = some (last, later) := by
  rw [run_append] at ran
  obtain ⟨⟨middle, earlier⟩, before, ran⟩ := Option.bind_eq_some_iff.mp ran
  obtain ⟨⟨_, later⟩, after, same⟩ := Option.map_eq_some_iff.mp ran
  cases same
  have wide := run_wide (show State.Wide .start from trivial) before
  cases middle with
  | start => exact ⟨earlier, later, before, after⟩
  | tail acc low high more =>
    obtain ⟨_, _, _, stepped, _⟩ := run_eq_cons after
    have least : 0x80 ≤ low := wide
    simp only [step, if_neg (show ¬(low ≤ octet ∧ octet ≤ high) by omega)] at stepped
    cases stepped

/-- A slice of a text that decodes so far, from an ASCII octet to one, decodes. -/
theorem decode_slice {surrogates : Bool} {last : State} {front middle rest codes : List Nat}
    {octet : Nat} (first : ∀ code ∈ (middle ++ [octet]).head?, code < 0x80) (ascii : octet < 0x80)
    (ran : run surrogates .start (front ++ (middle ++ [octet]) ++ rest) = some (last, codes)) :
    ∃ chars, decode surrogates (middle ++ [octet]) = some chars := by
  obtain ⟨code, more, begins⟩ : ∃ code more, middle ++ [octet] = code :: more :=
    List.exists_cons_of_ne_nil (by simp)
  rw [begins, List.append_assoc, List.cons_append] at ran
  obtain ⟨_, _, _, inside⟩ := run_ascii (first code (by rw [begins]; rfl)) ran
  rw [← List.cons_append, ← begins, List.append_assoc] at inside
  obtain ⟨earlier, _, before, _⟩ := run_ascii ascii inside
  have ended : run surrogates .start [octet] = some (.start, [octet]) := by
    simp [run, step, lead_ascii ascii]
  refine ⟨earlier ++ [octet], ?_⟩
  rw [decode, run_append, before, Option.bind_some]
  dsimp only
  rw [ended]
  rfl

end Utf8
