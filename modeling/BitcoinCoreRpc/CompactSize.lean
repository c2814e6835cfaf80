/-
This file models the serialization a signet's block challenge is hashed in: the script
behind the CompactSize of its length.

A CompactSize is one octet below `0xfd`, or one of three tags and the octets it announces,
least significant first. The main result says that what is written before a script is the
shortest of the forms a reader takes for its length, and that no serialized script begins
another.
-/

import Mathlib.Data.Nat.Digits.Lemmas
import BitcoinCoreRpc.Python

namespace BitcoinCoreRpc

/-! ### Codes a reader recovers -/

section Recovering

variable {Symbol Value : Type}

/-- A reader recovers a value and the size of its code from it, whatever follows. -/
def Recovers (read : List Symbol → Option (Value × Nat)) (code : List Symbol) (value : Value) :
    Prop :=
  ∀ rest, read (code ++ rest) = some (value, code.length)

/-- Two codes at the front of one text are one code, of one value. -/
theorem Recovers.unique {read : List Symbol → Option (Value × Nat)} {first second : List Symbol}
    {value other : Value} (one : Recovers read first value) (two : Recovers read second other)
    {rest rest' : List Symbol} (same : first ++ rest = second ++ rest') :
    value = other ∧ first = second ∧ rest = rest' := by
  have both : some (value, first.length) = some (other, second.length) := by
    rw [← one rest, ← two rest', same]
  obtain ⟨rfl, sizes⟩ := Prod.mk.inj (Option.some.inj both)
  exact ⟨rfl, List.append_inj same sizes⟩

/-- A text written behind the code of its length begins no other text written so. -/
theorem Recovers.prefix_eq {read : List Symbol → Option (Nat × Nat)} {a b first second : List Symbol}
    (one : Recovers read a first.length) (two : Recovers read b second.length)
    (begins : a ++ first <+: b ++ second) : first = second := by
  obtain ⟨more, same⟩ := begins
  rw [List.append_assoc] at same
  obtain ⟨sizes, _, rest⟩ := one.unique two same
  have nothing : more = [] := by
    have lengths := congrArg List.length rest
    rw [List.length_append, sizes] at lengths
    exact List.eq_nil_of_length_eq_zero (Nat.add_eq_left.mp lengths)
  rwa [nothing, List.append_nil] at rest

end Recovering

/-! ### The prefix -/

/-- `number.to_bytes(width, "little")` -/
def toBytes (width number : Nat) : Except Exc Bytes :=
  if number < 256 ^ width then .ok (Nat.digitsAppend 256 width number)
  else .error (.overflowError (str "int too big to convert"))

/-- `_compact_size` -/
def compactSize (length : Nat) : Except Exc Bytes :=
  if length < 0xFD then .ok [length]
  else if length ≤ 0xFFFF then (toBytes 2 length).map (0xFD :: ·)
  else if length ≤ 0xFFFFFFFF then (toBytes 4 length).map (0xFE :: ·)
  else (toBytes 8 length).map (0xFF :: ·)

/-- What `magic_from_signet_challenge` hashes: `_compact_size(len(script)) + script`. -/
def serialized (script : Bytes) : Except Exc Bytes :=
  (compactSize script.length).map (· ++ script)

/-! ### A reader of Core's format -/

/-- The number a CompactSize writes and how many octets it takes, with anything behind it. -/
def readCompactSize : Bytes → Option (Nat × Nat)
  | [] => none
  | tag :: rest =>
    if tag < 0xFD then some (tag, 1)
    else
      let width := if tag = 0xFD then 2 else if tag = 0xFE then 4 else 8
      if rest.length < width then none else some (Nat.ofDigits 256 (rest.take width), width + 1)

/-- Octets the reader takes for a length, all of them. -/
def EncodesSize (octets : Bytes) (length : Nat) : Prop :=
  (∀ octet ∈ octets, octet < 256) ∧ readCompactSize octets = some (length, octets.length)

/-- An encoding none is shorter than. -/
def Shortest (octets : Bytes) (length : Nat) : Prop :=
  EncodesSize octets length ∧ ∀ other, EncodesSize other length → octets.length ≤ other.length

/-- A form with a tag: the octets behind the tag, and the least number no shorter form writes. -/
inductive Form : (tag width least : Nat) → Prop
  | two : Form 0xFD 2 0xFD
  | four : Form 0xFE 4 0x10000
  | eight : Form 0xFF 8 0x100000000

theorem toBytes_of_lt {width number : Nat} (fits : number < 256 ^ width) :
    toBytes width number = .ok (Nat.digitsAppend 256 width number) := if_pos fits

/-- A length below `2 ^ 64` is written as one octet, or in the first form that holds it. -/
theorem compactSize_form {length : Nat} (fits : length < 2 ^ 64) :
    (length < 0xFD ∧ compactSize length = .ok [length]) ∨
      ∃ tag width least, Form tag width least ∧ least ≤ length ∧ length < 256 ^ width ∧
        compactSize length = .ok (tag :: Nat.digitsAppend 256 width length) := by
  unfold compactSize
  split_ifs with one two four
  · exact .inl ⟨one, rfl⟩
  · have below : length < 256 ^ 2 := by omega
    exact .inr ⟨_, _, _, .two, by omega, below, by rw [toBytes_of_lt below]; rfl⟩
  · have below : length < 256 ^ 4 := by omega
    exact .inr ⟨_, _, _, .four, by omega, below, by rw [toBytes_of_lt below]; rfl⟩
  · have below : length < 256 ^ 8 := by omega
    exact .inr ⟨_, _, _, .eight, by omega, below, by rw [toBytes_of_lt below]; rfl⟩

theorem exists_compactSize {length : Nat} (fits : length < 2 ^ 64) :
    ∃ coded, compactSize length = .ok coded := by
  rcases compactSize_form fits with ⟨_, wrote⟩ | ⟨_, _, _, _, _, _, wrote⟩
  · exact ⟨_, wrote⟩
  · exact ⟨_, wrote⟩

theorem readCompactSize_form {tag width least : Nat} (form : Form tag width least) (rest : Bytes) :
    readCompactSize (tag :: rest) =
      if rest.length < width then none
      else some (Nat.ofDigits 256 (rest.take width), width + 1) := by
  cases form <;> rfl

/-- What the reader takes for a length is one octet, or a form with its octets behind it. -/
theorem encodesSize_form {octets : Bytes} {length : Nat} (encodes : EncodesSize octets length) :
    (length < 0xFD ∧ octets = [length]) ∨
      ∃ tag width least tail, Form tag width least ∧ octets = tag :: tail ∧ tail.length = width ∧
        (∀ octet ∈ tail, octet < 256) ∧ Nat.ofDigits 256 tail = length := by
  obtain ⟨small, read⟩ := encodes
  cases octets with
  | nil => cases read
  | cons tag tail =>
    obtain ⟨tagSmall, tailSmall⟩ := List.forall_mem_cons.mp small
    by_cases one : tag < 0xFD
    · rw [readCompactSize, if_pos one] at read
      obtain ⟨rfl, size⟩ := Prod.mk.inj (Option.some.inj read)
      rw [List.eq_nil_of_length_eq_zero (Nat.succ.inj size).symm]
      exact .inl ⟨one, rfl⟩
    · have tagged : ∃ width least, Form tag width least := by
        obtain rfl | rfl | rfl : tag = 0xFD ∨ tag = 0xFE ∨ tag = 0xFF := by omega
        · exact ⟨_, _, .two⟩
        · exact ⟨_, _, .four⟩
        · exact ⟨_, _, .eight⟩
      obtain ⟨width, least, form⟩ := tagged
      rw [readCompactSize_form form] at read
      split_ifs at read with short
      obtain ⟨rfl, size⟩ := Prod.mk.inj (Option.some.inj read)
      have exactly : tail.length = width := (Nat.succ.inj size).symm
      refine .inr ⟨tag, width, least, tail, form, rfl, exactly, tailSmall, ?_⟩
      rw [List.take_of_length_le exactly.le]

/-! ### Recovery -/

/-- What is written before a length is read back from it, whatever follows. -/
theorem compactSize_recovers {length : Nat} {coded : Bytes} (fits : length < 2 ^ 64)
    (coding : compactSize length = .ok coded) : Recovers readCompactSize coded length := by
  intro rest
  rcases compactSize_form fits with ⟨one, wrote⟩ | ⟨tag, width, least, form, _, holds, wrote⟩
  all_goals
    rw [wrote] at coding
    obtain rfl := Except.ok.inj coding
  · simp [readCompactSize, one]
  · have size : (Nat.digitsAppend 256 width length).length = width :=
      Nat.length_digitsAppend (by decide) width holds
    have value : Nat.ofDigits 256 (Nat.digitsAppend 256 width length) = length :=
      (Nat.setInvOn_digitsAppend_ofDigits (by decide) width).2 holds
    rw [List.cons_append, readCompactSize_form form, List.length_append, size,
      if_neg (by omega), List.take_left' size, value, List.length_cons, size]

theorem compactSize_encodesSize {length : Nat} {coded : Bytes} (fits : length < 2 ^ 64)
    (coding : compactSize length = .ok coded) : EncodesSize coded length := by
  refine ⟨?_, by simpa using compactSize_recovers fits coding []⟩
  rcases compactSize_form fits with ⟨one, wrote⟩ | ⟨tag, width, least, form, _, _, wrote⟩
  all_goals
    rw [wrote] at coding
    obtain rfl := Except.ok.inj coding
  · simpa using one.trans (by decide)
  · refine List.forall_mem_cons.mpr ⟨?_, fun octet member =>
      Nat.lt_of_mem_digitsAppend (by decide) width octet member⟩
    cases form <;> decide

/-- A length is written in no form narrower than the first that holds it. -/
theorem Form.width_le {tag width least tag' width' least' length : Nat} (form : Form tag width least)
    (other : Form tag' width' least') (reaches : least ≤ length) (holds : length < 256 ^ width') :
    width ≤ width' := by
  cases form <;> cases other <;> omega

theorem Form.tag_eq {tag width least tag' least' : Nat} (form : Form tag width least)
    (other : Form tag' width least') : tag = tag' := by
  cases form <;> cases other <;> rfl

/-- Every encoding of a length is as long as the one written, and as short only where it is it. -/
theorem compactSize_least {length : Nat} {coded other : Bytes} (fits : length < 2 ^ 64)
    (coding : compactSize length = .ok coded) (encodes : EncodesSize other length) :
    coded.length ≤ other.length ∧ (other.length ≤ coded.length → other = coded) := by
  rcases compactSize_form fits with ⟨one, wrote⟩ | ⟨tag, width, least, form, reaches, holds, wrote⟩
  all_goals
    rw [wrote] at coding
    obtain rfl := Except.ok.inj coding
  · rcases encodesSize_form encodes with ⟨_, rfl⟩ | ⟨tag', width', least', tail, form', rfl, size, _, _⟩
    · exact ⟨le_rfl, fun _ => rfl⟩
    · refine ⟨by simp, fun short => ?_⟩
      have nothing : width' = 0 := by simpa [← size] using short
      cases form' <;> cases nothing
  · have size : (Nat.digitsAppend 256 width length).length = width :=
      Nat.length_digitsAppend (by decide) width holds
    rcases encodesSize_form encodes with
      ⟨one, _⟩ | ⟨tag', width', least', tail, form', rfl, size', small, value⟩
    · cases form <;> omega
    · have holds' : length < 256 ^ width' := by
        rw [← value, ← size']
        exact Nat.ofDigits_lt_base_pow_length (by decide) small
      rw [List.length_cons, List.length_cons, size, size']
      refine ⟨Nat.succ_le_succ (form.width_le form' reaches holds'), fun short => ?_⟩
      obtain rfl := le_antisymm (form.width_le form' reaches holds') (Nat.le_of_succ_le_succ short)
      rw [form.tag_eq form', ← value]
      exact congrArg _ ((Nat.setInvOn_digitsAppend_ofDigits (by decide) width).1 ⟨size', small⟩).symm

/-! ### The serialized script -/

/-- A script of `2 ^ 64` octets or more is not serialized. -/
theorem serialized_eq_ok {script octets : Bytes} (wrote : serialized script = .ok octets) :
    script.length < 2 ^ 64 ∧
      ∃ coded, compactSize script.length = .ok coded ∧ octets = coded ++ script := by
  obtain ⟨coded, coding, rfl⟩ := map_eq_ok wrote
  refine ⟨?_, coded, coding, rfl⟩
  by_contra long
  unfold compactSize at coding
  rw [if_neg (by omega), if_neg (by omega), if_neg (by omega), toBytes, if_neg (by omega)] at coding
  cases coding

/-- What is written before a length is its one shortest encoding, recovered with its size from
the front of any text, and no serialized script begins that of another. -/
theorem compactSize_canonical :
    (∀ length < 2 ^ 64, ∃ coded, compactSize length = .ok coded ∧ Shortest coded length ∧
      (∀ other, Shortest other length → other = coded) ∧
      ∀ rest, readCompactSize (coded ++ rest) = some (length, coded.length)) ∧
    ∀ first second a b, first ≠ second → serialized first = .ok a → serialized second = .ok b →
      ¬ a <+: b ∧ ¬ b <+: a ∧ a ≠ b := by
  constructor
  · intro length fits
    obtain ⟨coded, coding⟩ := exists_compactSize fits
    have encodes := compactSize_encodesSize fits coding
    refine ⟨coded, coding, ⟨encodes, fun other also => (compactSize_least fits coding also).1⟩,
      ?_, compactSize_recovers fits coding⟩
    rintro other ⟨also, least⟩
    exact (compactSize_least fits coding also).2 (least coded encodes)
  · intro first second a b different wroteA wroteB
    obtain ⟨fitsA, codeA, codingA, rfl⟩ := serialized_eq_ok wroteA
    obtain ⟨fitsB, codeB, codingB, rfl⟩ := serialized_eq_ok wroteB
    have recoversA := compactSize_recovers fitsA codingA
    have recoversB := compactSize_recovers fitsB codingB
    refine ⟨fun begins => different (recoversA.prefix_eq recoversB begins),
      fun begins => different (recoversB.prefix_eq recoversA begins).symm, fun same => ?_⟩
    exact different (recoversA.prefix_eq recoversB (same ▸ List.prefix_refl _))

theorem compactSize_canonical_short :
    (∃ coded, compactSize 0xFD = .ok coded ∧ Shortest coded 0xFD ∧
      (∀ other, Shortest other 0xFD → other = coded) ∧
      ∀ rest, readCompactSize (coded ++ rest) = some (0xFD, coded.length)) ∧
    (¬ [0] <+: [1, 0x51] ∧ ¬ [1, 0x51] <+: [0] ∧ [0] ≠ [1, 0x51]) :=
  ⟨compactSize_canonical.1 0xFD (by decide),
    compactSize_canonical.2 [] [0x51] [0] [1, 0x51] (by decide) (by decide) (by decide)⟩

end BitcoinCoreRpc
