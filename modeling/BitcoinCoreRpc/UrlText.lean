/-
This file is the text of a url as `urllib` reads it: the five parts `urlsplit` cuts it
into, what the authority names, and the request target that goes on a request line.

A text is a list of code points. What decides whether a bracketed host is an address is
a parameter. The main results say that the parts of a url are those it was put together
from, and that every url that splits with a scheme and an authority was put together so.
-/

import Mathlib.Data.List.TakeWhile

namespace UrlText

/-- A text, code point by code point. -/
abbrev Text := List Nat

/-! ### Cutting a text at a separator -/

/-- `text.partition(separator)`, the tail `none` where there is no separator. -/
def partition (separator : Nat) : Text → Text × Option Text
  | [] => ([], none)
  | code :: rest =>
    if code = separator then ([], some rest)
    else (code :: (partition separator rest).1, (partition separator rest).2)

/-- `text.rpartition(separator)`, the head `none` where there is no separator. -/
def rpartition (separator : Nat) (text : Text) : Option Text × Text :=
  ((partition separator text.reverse).2.map List.reverse, (partition separator text.reverse).1.reverse)

/-- `text.rstrip(code)` -/
def rstrip (code : Nat) (text : Text) : Text :=
  (text.reverse.dropWhile (· == code)).reverse

theorem partition_cut {separator : Nat} {head tail : Text} (absent : separator ∉ head) :
    partition separator (head ++ separator :: tail) = (head, some tail) := by
  induction head with
  | nil => exact if_pos rfl
  | cons code rest inductionHypothesis =>
    rw [List.mem_cons, not_or] at absent
    rw [List.cons_append, partition, if_neg (Ne.symm absent.1), inductionHypothesis absent.2]

theorem partition_whole {separator : Nat} {text : Text} (absent : separator ∉ text) :
    partition separator text = (text, none) := by
  induction text with
  | nil => rfl
  | cons code rest inductionHypothesis =>
    rw [List.mem_cons, not_or] at absent
    rw [partition, if_neg (Ne.symm absent.1), inductionHypothesis absent.2]

/-- A partition puts the text it cut together again. -/
theorem partition_cases (separator : Nat) (text : Text) :
    separator ∉ (partition separator text).1 ∧
      ((partition separator text).2 = none ∧ text = (partition separator text).1 ∨
        ∃ tail, (partition separator text).2 = some tail ∧
          text = (partition separator text).1 ++ separator :: tail) := by
  by_cases present : separator ∈ text
  · obtain ⟨head, tail, rfl, absent⟩ := List.eq_append_cons_of_mem present
    rw [partition_cut absent]
    exact ⟨absent, .inr ⟨tail, rfl, rfl⟩⟩
  · rw [partition_whole present]
    exact ⟨present, .inl ⟨rfl, rfl⟩⟩

theorem rpartition_cut {separator : Nat} {head tail : Text} (absent : separator ∉ tail) :
    rpartition separator (head ++ separator :: tail) = (some head, tail) := by
  have reversed : (head ++ separator :: tail).reverse = tail.reverse ++ separator :: head.reverse := by
    rw [List.reverse_append, List.reverse_cons, List.append_assoc, List.singleton_append]
  unfold rpartition
  rw [reversed, partition_cut (fun present => absent (List.mem_reverse.mp present)), Option.map_some,
    List.reverse_reverse, List.reverse_reverse]

theorem rpartition_whole {separator : Nat} {text : Text} (absent : separator ∉ text) :
    rpartition separator text = (none, text) := by
  unfold rpartition
  rw [partition_whole (fun present => absent (List.mem_reverse.mp present)), Option.map_none,
    List.reverse_reverse]

/-- What is stripped is a run of the code, at the end. -/
theorem exists_rstrip (code : Nat) (text : Text) :
    ∃ run, text = rstrip code text ++ run ∧ ∀ other ∈ run, other = code := by
  refine ⟨(text.reverse.takeWhile (· == code)).reverse, ?_, fun other member => ?_⟩
  · rw [rstrip, ← List.reverse_append, List.takeWhile_append_dropWhile, List.reverse_reverse]
  · have taken := @List.mem_takeWhile_imp _ (· == code) _ _ (List.mem_reverse.mp member)
    exact beq_iff_eq.mp taken

/-- Stripping stops before what does not end in the code. -/
theorem rstrip_append {code last : Nat} {front back : Text} (ends : last ≠ code) :
    rstrip code (front ++ last :: back) = front ++ last :: rstrip code back := by
  unfold rstrip
  rw [List.reverse_append, List.reverse_cons, List.append_assoc, List.dropWhile_append]
  split
  · rename_i stripped
    rw [List.isEmpty_iff.mp stripped, List.singleton_append,
      List.dropWhile_cons_of_neg (by simpa using ends)]
    simp
  · rw [List.reverse_append, List.reverse_append, List.reverse_reverse]
    simp

/-! ### A url -/

/-- An ASCII letter in lower case. -/
def lower (code : Nat) : Nat :=
  if 0x41 ≤ code ∧ code ≤ 0x5A then code + 0x20 else code

def isLetter (code : Nat) : Bool :=
  (0x41 ≤ code && code ≤ 0x5A) || (0x61 ≤ code && code ≤ 0x7A)

/-- `scheme_chars` -/
def isSchemeCode (code : Nat) : Bool :=
  isLetter code || (0x30 ≤ code && code ≤ 0x39) || code == 0x2B || code == 0x2D || code == 0x2E

/-- What ends an authority: a slash, a question mark or a number sign. -/
def isDelimiter (code : Nat) : Bool :=
  code == 0x2F || code == 0x3F || code == 0x23

/-- The five parts of a url, as `urlsplit` answers them. -/
structure Parts where
  scheme : Text
  netloc : Text
  path : Text
  query : Text
  fragment : Text
deriving DecidableEq

/-- The scheme a url begins with, empty where it begins with none. -/
def splitScheme (url : Text) : Text × Text :=
  match partition 0x3A url with
  | (first :: more, some rest) =>
    if isLetter first && (first :: more).all isSchemeCode then ((first :: more).map lower, rest)
    else ([], url)
  | _ => ([], url)

/-- The authority a url goes on with, empty where it goes on with none. -/
def splitNetloc : Text → Text × Text
  | 0x2F :: 0x2F :: rest =>
    (rest.takeWhile (!isDelimiter ·), rest.dropWhile (!isDelimiter ·))
  | rest => ([], rest)

/-- The path, query and fragment a url ends with. -/
def splitTail (tail : Text) : Text × Text × Text :=
  let (tail, fragment) := partition 0x23 tail
  let (path, query) := partition 0x3F tail
  (path, query.getD [], fragment.getD [])

/-- What a partition of the host and port leaves in brackets, and after them. -/
def hostinfo (netloc : Text) : Text × Option Text :=
  match partition 0x5B (rpartition 0x40 netloc).2 with
  | (_, some bracketed) =>
    ((partition 0x5D bracketed).1, (partition 0x3A ((partition 0x5D bracketed).2.getD [])).2)
  | (_, none) => partition 0x3A (rpartition 0x40 netloc).2

/-- `_check_bracketed_netloc`: nothing stands before the bracket, nothing but a port after it, and
what is in it is an address. -/
def checkBracketed (isAddress : Text → Bool) (netloc : Text) : Bool :=
  match partition 0x5B (rpartition 0x40 netloc).2 with
  | (before, some bracketed) =>
    before.isEmpty && (match ((partition 0x5D bracketed).2.getD []) with
      | [] => true
      | code :: _ => code == 0x3A) && isAddress (partition 0x5D bracketed).1
  | (hostname, none) => isAddress (partition 0x3A hostname).1

/-- Whether `urlsplit` takes an authority, whose characters are ASCII. -/
def checkNetloc (isAddress : Text → Bool) (netloc : Text) : Bool :=
  if netloc.contains 0x5B && netloc.contains 0x5D then checkBracketed isAddress netloc
  else netloc.contains 0x5B == netloc.contains 0x5D

/-- `urlsplit`, `none` for its `ValueError`. -/
def urlsplit (isAddress : Text → Bool) (url : Text) : Option Parts :=
  let url := (url.dropWhile (· ≤ 0x20)).filter fun code => code != 9 && code != 10 && code != 13
  let (scheme, rest) := splitScheme url
  let (netloc, tail) := splitNetloc rest
  let (path, query, fragment) := splitTail tail
  if checkNetloc isAddress netloc then some ⟨scheme, netloc, path, query, fragment⟩ else none

/-! ### The authority -/

/-- `SplitResult.hostname`, in lower case up to an IPv6 zone. -/
def Parts.hostname (parts : Parts) : Option Text :=
  match (hostinfo parts.netloc).1 with
  | [] => none
  | host => some ((partition 0x25 host).1.map lower ++ match (partition 0x25 host).2 with
    | none => []
    | some zone => 0x25 :: zone)

/-- The value of some decimal digits. -/
def digitsNumber (digits : Text) : Nat :=
  digits.foldl (fun number digit => 10 * number + (digit - 0x30)) 0

/-- `SplitResult.port`, `none` for its `ValueError`. An `int` takes as many digits as `digitLimit`,
any number of them where that is zero. -/
def Parts.port (digitLimit : Nat) (parts : Parts) : Option (Option Nat) :=
  match (hostinfo parts.netloc).2 with
  | none | some [] => some none
  | some digits =>
    if digits.all (fun code => 0x30 ≤ code && code ≤ 0x39) &&
        (digitLimit == 0 || decide (digits.length ≤ digitLimit)) &&
        decide (digitsNumber digits ≤ 65535) then
      some (some (digitsNumber digits))
    else none

/-- `SplitResult.username` -/
def Parts.username (parts : Parts) : Option Text :=
  (rpartition 0x40 parts.netloc).1.map fun userinfo => (partition 0x3A userinfo).1

/-- `SplitResult.password` -/
def Parts.password (parts : Parts) : Option Text :=
  (rpartition 0x40 parts.netloc).1.bind fun userinfo => (partition 0x3A userinfo).2

/-! ### The request target -/

/-- `_splittag`: a url without its fragment. -/
def splitTag (url : Text) : Text :=
  (rpartition 0x23 url).1.getD (rpartition 0x23 url).2

/-- `_splittype`: what follows a scheme and its colon. -/
def splitType (url : Text) : Text :=
  match url.takeWhile (fun code => code != 0x2F && code != 0x3A),
    url.dropWhile (fun code => code != 0x2F && code != 0x3A) with
  | _ :: _, 0x3A :: rest => rest
  | _, _ => url

/-- A path that is not empty, from a slash on. -/
def rooted : Text → Text
  | [] => []
  | code :: rest => if code = 0x2F then code :: rest else 0x2F :: code :: rest

/-- `_splithost`: what follows the authority. -/
def splitHost : Text → Text
  | 0x2F :: 0x2F :: rest => rooted (rest.dropWhile (!isDelimiter ·))
  | rest => rest

/-- `Request.selector`, of a url `unwrap` leaves as it is. -/
def selector (url : Text) : Text :=
  splitHost (splitType (splitTag url))

/-! ### Percent-encoding -/

/-- An octet `quote` never encodes: a letter, a digit, or one of `_.-~`. -/
def isUnreserved (octet : Nat) : Bool :=
  isLetter octet || (0x30 ≤ octet && octet ≤ 0x39) || octet == 0x5F || octet == 0x2E ||
    octet == 0x2D || octet == 0x7E

/-- A hexadecimal digit in upper case. -/
def percentDigit (value : Nat) : Nat :=
  if value < 10 then 0x30 + value else 0x37 + value

/-- The value of a hexadecimal digit of either case. -/
def percentValue (code : Nat) : Option Nat :=
  if 0x30 ≤ code ∧ code ≤ 0x39 then some (code - 0x30)
  else if 0x41 ≤ code ∧ code ≤ 0x46 then some (code - 0x37)
  else if 0x61 ≤ code ∧ code ≤ 0x66 then some (code - 0x57)
  else none

/-- An octet, percent-encoded unless it is unreserved. -/
def quoteOctet (octet : Nat) : Text :=
  if isUnreserved octet then [octet]
  else [0x25, percentDigit (octet / 16), percentDigit (octet % 16)]

/-- `quote_from_bytes(octets, safe="")` -/
def quoteOctets (octets : List Nat) : Text := octets.flatMap quoteOctet

/-- The octets a percent-encoded text stands for. -/
def unquote : Text → List Nat
  | 0x25 :: high :: low :: rest =>
    match percentValue high, percentValue low with
    | some high, some low => (16 * high + low) :: unquote rest
    | _, _ => 0x25 :: unquote (high :: low :: rest)
  | code :: rest => code :: unquote rest
  | [] => []

theorem percentValue_percentDigit {value : Nat} (small : value < 16) :
    percentValue (percentDigit value) = some value := by
  unfold percentDigit percentValue
  split_ifs <;> first | omega | exact congrArg some (by omega)

theorem unquote_quoteOctet {octet : Nat} (small : octet < 0x100) (rest : Text) :
    unquote (quoteOctet octet ++ rest) = octet :: unquote rest := by
  unfold quoteOctet
  split_ifs with unreserved
  · have other : octet ≠ 0x25 := by
      rintro rfl
      cases unreserved
    rw [List.singleton_append, unquote]
    exact fun _ _ _ same => absurd same other
  · simp only [List.cons_append, List.nil_append, unquote,
      percentValue_percentDigit (show octet / 16 < 16 by omega),
      percentValue_percentDigit (show octet % 16 < 16 by omega)]
    rw [Nat.div_add_mod]

/-- What was percent-encoded is read back. -/
theorem unquote_quoteOctets {octets : List Nat} (small : ∀ octet ∈ octets, octet < 0x100) :
    unquote (quoteOctets octets) = octets := by
  induction octets with
  | nil => rfl
  | cons octet rest inductionHypothesis =>
    obtain ⟨first, others⟩ := List.forall_mem_cons.mp small
    rw [quoteOctets, List.flatMap_cons, unquote_quoteOctet first, ← quoteOctets,
      inductionHypothesis others]

/-- Only unreserved characters and percent signs are written. -/
theorem mem_quoteOctets {octets : List Nat} (small : ∀ octet ∈ octets, octet < 0x100) {code : Nat}
    (member : code ∈ quoteOctets octets) : isUnreserved code = true ∨ code = 0x25 := by
  obtain ⟨octet, among, written⟩ := List.mem_flatMap.mp member
  have below := small octet among
  have digit : ∀ value < 16, isUnreserved (percentDigit value) = true := by decide
  unfold quoteOctet at written
  split_ifs at written with unreserved
  · exact .inl (List.mem_singleton.mp written ▸ unreserved)
  · simp only [List.mem_cons, List.not_mem_nil, or_false] at written
    rcases written with rfl | rfl | rfl
    · exact .inr rfl
    · exact .inl (digit _ (by omega))
    · exact .inl (digit _ (by omega))

/-! ### Putting a url together -/

/-- A url with an authority. -/
def spell (name netloc tail : Text) : Text :=
  name ++ 0x3A :: 0x2F :: 0x2F :: (netloc ++ tail)

/-- The pieces of a url with an authority are where `urlsplit` looks for them. -/
structure Spelled (name netloc tail : Text) : Prop where
  letter : ∃ first more, name = first :: more ∧ isLetter first = true
  scheme : ∀ code ∈ name, isSchemeCode code = true
  authority : ∀ code ∈ netloc, isDelimiter code = false
  tail : tail = [] ∨ ∃ first more, tail = first :: more ∧ isDelimiter first = true

theorem Spelled.front {name netloc front back : Text} (spelled : Spelled name netloc (front ++ back)) :
    Spelled name netloc front where
  letter := spelled.letter
  scheme := spelled.scheme
  authority := spelled.authority
  tail := by
    cases front with
    | nil => exact .inl rfl
    | cons first more =>
      rcases spelled.tail with empty | ⟨other, rest, begins, delimiter⟩
      · cases empty
      · obtain rfl : first = other := (List.cons.inj begins).1
        exact .inr ⟨first, more, rfl, delimiter⟩

theorem isSchemeCode_ne {code other : Nat} (inScheme : isSchemeCode code = true)
    (out : isSchemeCode other = false) : code ≠ other := by
  rintro rfl
  rw [inScheme] at out
  cases out

theorem dropWhile_plain {text : Text} (plain : ∀ code ∈ text, 0x20 < code) :
    text.dropWhile (· ≤ 0x20) = text := by
  cases text with
  | nil => rfl
  | cons code rest =>
    exact List.dropWhile_cons_of_neg (by simpa using plain code List.mem_cons_self)

theorem filter_plain {text : Text} (plain : ∀ code ∈ text, 0x20 < code) :
    text.filter (fun code => code != 9 && code != 10 && code != 13) = text := by
  refine List.filter_eq_self.mpr fun code member => ?_
  have above := plain code member
  simp only [Bool.and_eq_true, bne_iff_ne, ne_eq]
  omega

theorem mem_spell {name netloc tail : Text} {code : Nat} :
    code ∈ spell name netloc tail ↔
      code ∈ name ∨ code = 0x3A ∨ code = 0x2F ∨ code ∈ netloc ∨ code ∈ tail := by
  simp only [spell, List.mem_append, List.mem_cons, or_self_left]

theorem mem_rstrip {code other : Nat} {text : Text} (member : other ∈ rstrip code text) :
    other ∈ text := by
  obtain ⟨run, same, _⟩ := exists_rstrip code text
  rw [same]
  exact List.mem_append_left _ member

section Spelled

variable {isAddress : Text → Bool} {name netloc tail url : Text}

theorem takeWhile_authority (spelled : Spelled name netloc tail) :
    (netloc ++ tail).takeWhile (!isDelimiter ·) = netloc ∧
      (netloc ++ tail).dropWhile (!isDelimiter ·) = tail := by
  have outside : ∀ code ∈ netloc, (!isDelimiter code) = true := fun code member => by
    rw [spelled.authority code member, Bool.not_false]
  rw [List.takeWhile_append_of_pos outside, List.dropWhile_append_of_pos outside]
  rcases spelled.tail with rfl | ⟨first, more, rfl, delimiter⟩
  · exact ⟨List.append_nil _, rfl⟩
  · have stops : ¬ (!isDelimiter first) = true := by simp [delimiter]
    exact ⟨by rw [@List.takeWhile_cons_of_neg _ (!isDelimiter ·) _ _ stops, List.append_nil],
      @List.dropWhile_cons_of_neg _ (!isDelimiter ·) _ _ stops⟩

theorem splitScheme_spell (spelled : Spelled name netloc tail) :
    splitScheme (spell name netloc tail) =
      (name.map lower, 0x2F :: 0x2F :: (netloc ++ tail)) := by
  have absent : 0x3A ∉ name := fun present =>
    isSchemeCode_ne (spelled.scheme _ present) (by decide) rfl
  obtain ⟨first, more, rfl, letter⟩ := spelled.letter
  unfold splitScheme spell
  rw [partition_cut absent]
  exact if_pos (by rw [letter, List.all_eq_true.mpr spelled.scheme]; rfl)

/-- A url that was put together splits into what it was put together from. -/
theorem urlsplit_spell (spelled : Spelled name netloc tail)
    (plain : ∀ code ∈ spell name netloc tail, 0x20 < code) :
    urlsplit isAddress (spell name netloc tail) =
      if checkNetloc isAddress netloc then
        some ⟨name.map lower, netloc, (splitTail tail).1, (splitTail tail).2.1, (splitTail tail).2.2⟩
      else none := by
  obtain ⟨takes, drops⟩ := takeWhile_authority spelled
  simp only [urlsplit, dropWhile_plain plain, filter_plain plain, splitScheme_spell spelled,
    splitNetloc, takes, drops]

/-- A url begins with a scheme and a colon, or is read as having none. -/
theorem splitScheme_cases (url : Text) :
    (splitScheme url).1 = [] ∨ ∃ name rest, url = name ++ 0x3A :: rest ∧
      (∃ first more, name = first :: more ∧ isLetter first = true) ∧
      (∀ code ∈ name, isSchemeCode code = true) ∧ (splitScheme url).2 = rest := by
  unfold splitScheme
  split
  · rename_i first more rest cut
    split_ifs with valid
    · rw [Bool.and_eq_true] at valid
      obtain ⟨_, ⟨whole, _⟩ | ⟨tail, found, together⟩⟩ := partition_cases 0x3A url
      · rw [cut] at whole
        cases whole
      · rw [cut] at found together
        cases found
        exact .inr ⟨first :: more, rest, together, ⟨first, more, rfl, valid.1⟩,
          List.all_eq_true.mp valid.2, rfl⟩
    · exact .inl rfl
  · exact .inl rfl

/-- What follows a scheme goes on with two slashes, or is read as having no authority. -/
theorem splitNetloc_cases (rest : Text) :
    (splitNetloc rest).1 = [] ∨ ∃ after, rest = 0x2F :: 0x2F :: after ∧
      (splitNetloc rest).1 = after.takeWhile (!isDelimiter ·) := by
  unfold splitNetloc
  split
  · exact .inr ⟨_, rfl, rfl⟩
  · exact .inl rfl

/-- What splits with a scheme and an authority was put together of them. -/
theorem exists_spell {parts : Parts} (plain : ∀ code ∈ url, 0x20 < code)
    (split : urlsplit isAddress url = some parts) (scheme : parts.scheme ≠ [])
    (authority : parts.netloc ≠ []) :
    ∃ name tail, Spelled name parts.netloc tail ∧ url = spell name parts.netloc tail := by
  simp only [urlsplit, dropWhile_plain plain, filter_plain plain] at split
  split_ifs at split
  cases split
  obtain none_ | ⟨name, rest, rfl, letter, valid, follows⟩ := splitScheme_cases url
  · exact absurd none_ scheme
  rw [follows] at authority ⊢
  obtain none_ | ⟨after, rfl, netloc⟩ := splitNetloc_cases rest
  · exact absurd none_ authority
  rw [netloc]
  refine ⟨name, after.dropWhile (!isDelimiter ·), ⟨letter, valid, fun code member => ?_, ?_⟩, ?_⟩
  · have taken := @List.mem_takeWhile_imp _ (!isDelimiter ·) _ _ member
    simpa using taken
  · rcases drops : after.dropWhile (!isDelimiter ·) with _ | ⟨first, more⟩
    · exact .inl rfl
    · have stops := @List.head_dropWhile_not _ (!isDelimiter ·) after (by rw [drops]; exact nofun)
      simp only [drops, List.head_cons, Bool.not_eq_false'] at stops
      exact .inr ⟨first, more, rfl, stops⟩
  · rw [spell, List.takeWhile_append_dropWhile]

/-- A question mark or a number sign of a url stands after its authority. -/
theorem mark_mem_spell {code : Nat} (spelled : Spelled name netloc tail)
    (mark : code = 0x3F ∨ code = 0x23) : code ∈ spell name netloc tail ↔ code ∈ tail := by
  refine mem_spell.trans ⟨fun member => ?_, fun member => .inr (.inr (.inr (.inr member)))⟩
  rcases member with inName | rfl | rfl | inNetloc | inTail
  · have inScheme := spelled.scheme code inName
    rcases mark with rfl | rfl <;> cases inScheme
  · rcases mark with other | other <;> cases other
  · rcases mark with other | other <;> cases other
  · have outside := spelled.authority code inNetloc
    rcases mark with rfl | rfl <;> cases outside
  · exact inTail

/-- The request target of a url without a fragment is what follows its authority. -/
theorem selector_spell (spelled : Spelled name netloc tail)
    (noFragment : 0x23 ∉ tail) : selector (spell name netloc tail) = rooted tail := by
  have before : ∀ code ∈ name, (code != 0x2F && code != 0x3A) = true := fun code member => by
    have inScheme := spelled.scheme code member
    rw [Bool.and_eq_true, bne_iff_ne, bne_iff_ne]
    exact ⟨isSchemeCode_ne inScheme (by decide), isSchemeCode_ne inScheme (by decide)⟩
  have scheme : splitType (spell name netloc tail) = 0x2F :: 0x2F :: (netloc ++ tail) := by
    obtain ⟨first, more, rfl, _⟩ := spelled.letter
    unfold splitType spell
    rw [List.takeWhile_append_of_pos before, List.dropWhile_append_of_pos before]
    rfl
  rw [selector, splitTag,
    rpartition_whole (fun present => noFragment ((mark_mem_spell spelled (.inr rfl)).mp present)),
    Option.getD_none, scheme, splitHost, (takeWhile_authority spelled).2]

/-- With a fragment it ends where the last number sign stands. -/
theorem selector_fragment {tag : Text} (spelled : Spelled name netloc tail) (noFragment : 0x23 ∉ tail)
    (absent : 0x23 ∉ tag) : selector (spell name netloc (tail ++ 0x23 :: tag)) = rooted tail := by
  have together : spell name netloc (tail ++ 0x23 :: tag) =
      spell name netloc tail ++ 0x23 :: tag := by
    simp only [spell, List.append_assoc, List.cons_append]
  rw [← selector_spell spelled noFragment, selector, splitTag, together, rpartition_cut absent,
    Option.getD_some, selector, splitTag,
    rpartition_whole (fun present => noFragment ((mark_mem_spell spelled (.inr rfl)).mp present)),
    Option.getD_none]

end Spelled

/-! ### A path -/

theorem mem_rooted {code : Nat} {text : Text} (member : code ∈ rooted text) :
    code = 0x2F ∨ code ∈ text := by
  cases text with
  | nil => cases member
  | cons first more =>
    rw [rooted] at member
    split_ifs at member
    · exact .inr member
    · exact List.mem_cons.mp member

theorem length_rooted (text : Text) : text.length ≤ (rooted text).length := by
  cases text with
  | nil => exact le_rfl
  | cons first more =>
    rw [rooted]
    split_ifs
    · exact le_rfl
    · exact Nat.le_succ _

theorem rooted_slash (text : Text) : rooted (0x2F :: text) = 0x2F :: text := by
  rw [rooted, if_pos rfl]

/-- A tail whose query and fragment are empty is a path and the marks they would begin with. -/
theorem splitTail_empty {tail : Text} (query : (splitTail tail).2.1 = [])
    (fragment : (splitTail tail).2.2 = []) :
    0x3F ∉ (splitTail tail).1 ∧ 0x23 ∉ (splitTail tail).1 ∧
      ∃ marks, tail = (splitTail tail).1 ++ marks ∧
        (marks = [] ∨ marks = [0x3F] ∨ marks = [0x23] ∨ marks = [0x3F, 0x23]) := by
  simp only [splitTail] at query fragment ⊢
  obtain ⟨noSign, whole | ⟨tag, cut, together⟩⟩ := partition_cases 0x23 tail
  all_goals
    generalize (partition 0x23 tail).1 = front at *
    obtain ⟨noMark, whole' | ⟨asked, cut', together'⟩⟩ := partition_cases 0x3F front
  · exact ⟨noMark, fun present => noSign (whole'.2 ▸ present), [],
      by rw [List.append_nil, ← whole'.2, ← whole.2], .inl rfl⟩
  · rw [cut', Option.getD_some] at query
    subst query
    refine ⟨noMark, fun present => noSign ?_, [0x3F], by rw [← together', ← whole.2],
      .inr (.inl rfl)⟩
    rw [together']
    exact List.mem_append_left _ present
  · rw [cut, Option.getD_some] at fragment
    subst fragment
    exact ⟨noMark, fun present => noSign (whole'.2 ▸ present), [0x23],
      by rw [← whole'.2, ← together], .inr (.inr (.inl rfl))⟩
  · rw [cut', Option.getD_some] at query
    rw [cut, Option.getD_some] at fragment
    subst query fragment
    refine ⟨noMark, fun present => noSign ?_, [0x3F, 0x23], ?_, .inr (.inr (.inr rfl))⟩
    · rw [together']
      exact List.mem_append_left _ present
    · exact together.trans
        ((congrArg (· ++ [0x23]) together').trans (List.append_assoc _ _ _))

/-! ### Where a host is written -/

section Host

variable {code separator : Nat} {text tail url netloc host : Text}

theorem mem_partition_fst (member : code ∈ (partition separator text).1) : code ∈ text := by
  obtain ⟨_, ⟨_, whole⟩ | ⟨tail, _, together⟩⟩ := partition_cases separator text
  · rwa [whole]
  · rw [together]
    exact List.mem_append_left _ member

theorem mem_partition_snd (cut : (partition separator text).2 = some tail) (member : code ∈ tail) :
    code ∈ text := by
  obtain ⟨_, ⟨whole, _⟩ | ⟨tail', cut', together⟩⟩ := partition_cases separator text
  · rw [whole] at cut
    cases cut
  · obtain rfl := Option.some.inj (cut.symm.trans cut')
    rw [together]
    exact List.mem_append_right _ (List.mem_cons_of_mem _ member)

theorem mem_rpartition_snd (member : code ∈ (rpartition separator text).2) : code ∈ text :=
  List.mem_reverse.mp (mem_partition_fst (List.mem_reverse.mp member))

theorem mem_hostinfo (member : code ∈ (hostinfo netloc).1) : code ∈ netloc := by
  unfold hostinfo at member
  split at member
  · rename_i bracketed cut
    exact mem_rpartition_snd (mem_partition_snd (by rw [cut]) (mem_partition_fst member))
  · exact mem_rpartition_snd (mem_partition_fst member)

/-- A host is written in the authority, its letters in either case. -/
theorem mem_hostname {parts : Parts} (named : parts.hostname = some host) (member : code ∈ host) :
    ∃ written ∈ parts.netloc, code = written ∨ code = lower written := by
  unfold Parts.hostname at named
  split at named
  · cases named
  · obtain rfl := Option.some.inj named
    rcases List.mem_append.mp member with inName | inZone
    · obtain ⟨written, inHost, rfl⟩ := List.mem_map.mp inName
      exact ⟨written, mem_hostinfo (mem_partition_fst inHost), .inr rfl⟩
    · refine ⟨code, mem_hostinfo ?_, .inl rfl⟩
      split at inZone
      · cases inZone
      · rename_i zone cut
        obtain ⟨_, ⟨whole, _⟩ | ⟨tail, cut', together⟩⟩ := partition_cases 0x25 (hostinfo parts.netloc).1
        · rw [whole] at cut
          cases cut
        · obtain rfl := Option.some.inj (cut.symm.trans cut')
          rw [together]
          exact List.mem_append_right _ inZone

theorem mem_splitNetloc (member : code ∈ (splitNetloc text).1) : code ∈ text := by
  unfold splitNetloc at member
  split at member
  · exact List.mem_cons_of_mem _ (List.mem_cons_of_mem _ ((List.takeWhile_prefix _).subset member))
  · cases member

theorem mem_splitScheme (member : code ∈ (splitScheme text).2) : code ∈ text := by
  unfold splitScheme at member
  split at member
  · rename_i first more rest cut
    split_ifs at member
    · exact mem_partition_snd (by rw [cut]) member
    · exact member
  · exact member

/-- The authority is a part of the url. -/
theorem mem_netloc {isAddress : Text → Bool} {parts : Parts}
    (split : urlsplit isAddress url = some parts) (member : code ∈ parts.netloc) : code ∈ url := by
  simp only [urlsplit] at split
  split_ifs at split
  cases split
  have kept := (List.mem_filter.mp (mem_splitScheme (mem_splitNetloc member))).1
  exact (List.dropWhile_suffix _).subset kept

end Host

end UrlText
