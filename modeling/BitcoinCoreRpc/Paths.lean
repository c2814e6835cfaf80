/-
This file is the paths of a file system, as a library.

A flavour is how a text is read as a path and written back, which paths are absolute, and
what a segment below a path is. A lawful one keeps a name below an absolute path: the path
stays absolute, and both it and the name are told from what they make. The POSIX flavour
is one: a path is its root and the names below it, of which none is empty, a lone dot or
holds a slash.
-/

import Mathlib.Data.List.Basic

namespace Paths

/-- A text, by its code points. -/
abbrev Text := List Nat

structure Flavour where
  Path : Type
  parse : Text → Path
  text : Path → Text
  isAbsolute : Path → Bool
  /-- `path / segment` -/
  join : Path → Text → Path

/-- `str(Path(text))` -/
def Flavour.written (flavour : Flavour) (text : Text) : Text :=
  flavour.text (flavour.parse text)

def isLetter (code : Nat) : Bool :=
  (0x41 ≤ code && code ≤ 0x5A) || (0x61 ≤ code && code ≤ 0x7A)

/-- A letter, a digit, a dot or a blank. -/
def isPlain (code : Nat) : Bool :=
  isLetter code || (0x30 ≤ code && code ≤ 0x39) || code == 0x2E || code == 0x20

/-- A segment that is one name in any flavour. -/
structure IsName (segment : Text) : Prop where
  plain : ∀ code ∈ segment, isPlain code = true
  lettered : ∃ code ∈ segment, isLetter code = true

/-- What is relied on of a flavour. -/
structure Flavour.Lawful (flavour : Flavour) : Prop where
  parse_text : ∀ path, flavour.parse (flavour.text path) = path
  join_nil : ∀ path, flavour.join path [] = path
  absolute_join : ∀ {path segment}, flavour.isAbsolute path = true → IsName segment →
    flavour.isAbsolute (flavour.join path segment) = true
  join_ne : ∀ {path segment}, flavour.isAbsolute path = true → IsName segment →
    flavour.join path segment ≠ path
  join_inj : ∀ {path path' segment segment'}, flavour.isAbsolute path = true →
    flavour.isAbsolute path' = true → IsName segment → IsName segment' →
    flavour.join path segment = flavour.join path' segment' → path = path' ∧ segment = segment'

section Lawful

variable {flavour : Flavour} {path : flavour.Path} {segments : List Text}

theorem Flavour.Lawful.text_inj (lawful : flavour.Lawful) {path other : flavour.Path}
    (same : flavour.text path = flavour.text other) : path = other := by
  rw [← lawful.parse_text path, same, lawful.parse_text]

/-- A path that was written is written alike. -/
theorem Flavour.Lawful.written_text (lawful : flavour.Lawful) (path : flavour.Path) :
    flavour.written (flavour.text path) = flavour.text path := by
  rw [Flavour.written, lawful.parse_text]

/-- Names below an absolute path make one. -/
theorem Flavour.Lawful.absolute_foldl (lawful : flavour.Lawful) (absolute : flavour.isAbsolute path = true)
    (names : ∀ segment ∈ segments, IsName segment) :
    flavour.isAbsolute (segments.foldl flavour.join path) = true := by
  induction segments generalizing path with
  | nil => exact absolute
  | cons segment rest inductionHypothesis =>
    obtain ⟨name, others⟩ := List.forall_mem_cons.mp names
    exact inductionHypothesis (lawful.absolute_join absolute name) others

end Lawful

/-! ### POSIX -/

/-- A name in a POSIX path. -/
def IsPart (part : Text) : Prop :=
  part ≠ [] ∧ part ≠ [0x2E] ∧ 0x2F ∉ part

/-- A `PurePosixPath`: the slashes in front, of which two are told from one, and the names. -/
@[ext]
structure Posix where
  root : Fin 3
  parts : List Text
  parted : ∀ part ∈ parts, IsPart part

namespace Posix

/-- The slashes in front of a text that count. -/
def rootOf : Text → Fin 3
  | 0x2F :: 0x2F :: 0x2F :: _ => 1
  | 0x2F :: 0x2F :: _ => 2
  | 0x2F :: _ => 1
  | _ => 0

/-- The names between the slashes of a text. -/
def partsOf (text : Text) : List Text :=
  (text.splitOn 0x2F).filter fun part => part ≠ [] ∧ part ≠ [0x2E]

theorem not_mem_of_split {text part : Text} (member : part ∈ text.splitOn 0x2F) : 0x2F ∉ part := by
  induction text generalizing part with
  | nil =>
    rw [List.splitOn_nil] at member
    simp [List.mem_singleton.mp member]
  | cons code rest inductionHypothesis =>
    rw [List.splitOn_cons_eq_if_modifyHead] at member
    split_ifs at member with slash
    · rcases List.mem_cons.mp member with rfl | later
      · exact List.not_mem_nil
      · exact inductionHypothesis later
    · obtain ⟨first, others, split⟩ := List.exists_cons_of_ne_nil (List.splitOn_ne_nil 0x2F rest)
      rw [split] at member inductionHypothesis
      rcases List.mem_cons.mp member with rfl | later
      · rintro (_ | ⟨_, inside⟩)
        · exact slash rfl
        · exact inductionHypothesis List.mem_cons_self inside
      · exact inductionHypothesis (List.mem_cons_of_mem _ later)

theorem parted_partsOf (text : Text) : ∀ part ∈ partsOf text, IsPart part := by
  intro part member
  obtain ⟨split, kept⟩ := List.mem_filter.mp member
  obtain ⟨full, other⟩ := decide_eq_true_iff.mp kept
  exact ⟨full, other, not_mem_of_split split⟩

/-- `PurePosixPath(text)` -/
def parse (text : Text) : Posix :=
  ⟨rootOf text, partsOf text, parted_partsOf text⟩

/-- `str(path)` -/
def text (path : Posix) : Text :=
  if path.root = 0 ∧ path.parts = [] then [0x2E]
  else List.replicate path.root.val 0x2F ++ [0x2F].intercalate path.parts

/-- `path / segment` -/
def join (path : Posix) (segment : Text) : Posix :=
  if rootOf segment ≠ 0 then parse segment
  else ⟨path.root, path.parts ++ partsOf segment,
    List.forall_mem_append.mpr ⟨path.parted, parted_partsOf segment⟩⟩

end Posix

/-- The paths of a POSIX system. -/
def posix : Flavour where
  Path := Posix
  parse := Posix.parse
  text := Posix.text
  isAbsolute path := path.root ≠ 0
  join := Posix.join

example : posix.text (posix.join (posix.parse [0x2F, 0x68, 0x2F, 0x2F, 0x2E, 0x2F, 0x75, 0x2F]) [0x78]) =
    [0x2F, 0x68, 0x2F, 0x75, 0x2F, 0x78] := by
  decide

example : posix.written [0x2F, 0x63, 0x2F, 0x2E, 0x2F, 0x78, 0x2F, 0x2F, 0x79] =
    [0x2F, 0x63, 0x2F, 0x78, 0x2F, 0x79] := by
  decide

/-! ### The laws of POSIX paths -/

section Posix

variable {segment rest : Text} {parts : List Text}

namespace Posix

theorem rootOf_append (root : Fin 3) (outside : rest.head? ≠ some 0x2F) :
    rootOf (List.replicate root.val 0x2F ++ rest) = root := by
  cases rest with
  | nil => match root with | 0 | 1 | 2 => rfl
  | cons code others =>
    have other : code ≠ 0x2F := fun slash => outside (congrArg some slash)
    match root with | 0 | 1 | 2 => simp [rootOf, List.replicate, other]

theorem partsOf_slash (text : Text) : partsOf (0x2F :: text) = partsOf text := by
  rw [partsOf, List.splitOn_cons_eq_if_modifyHead, if_pos (beq_self_eq_true _),
    List.filter_cons_of_neg (by simp)]
  rfl

theorem partsOf_slashes (count : Nat) (text : Text) :
    partsOf (List.replicate count 0x2F ++ text) = partsOf text := by
  induction count with
  | zero => rfl
  | succ count inductionHypothesis =>
    rw [List.replicate_succ, List.cons_append, partsOf_slash, inductionHypothesis]

/-- Names between slashes are read back. -/
theorem partsOf_intercalate (parted : ∀ part ∈ parts, IsPart part) :
    partsOf ([0x2F].intercalate parts) = parts := by
  cases parts with
  | nil => rfl
  | cons part others =>
    rw [partsOf, List.splitOn_intercalate 0x2F (fun part member => (parted part member).2.2)
      (List.cons_ne_nil _ _)]
    refine List.filter_eq_self.mpr fun part member => ?_
    exact decide_eq_true ⟨(parted part member).1, (parted part member).2.1⟩

theorem head_intercalate (parted : ∀ part ∈ parts, IsPart part) :
    ([0x2F].intercalate parts).head? ≠ some 0x2F := by
  cases parts with
  | nil => exact nofun
  | cons part others =>
    obtain ⟨full, -, outside⟩ := parted part List.mem_cons_self
    obtain ⟨code, more, rfl⟩ := List.exists_cons_of_ne_nil full
    have other : code ≠ 0x2F := fun slash => outside (slash ▸ List.mem_cons_self)
    cases others <;> simp [List.intercalate_cons_cons, other]

theorem parse_text (path : Posix) : parse path.text = path := by
  obtain ⟨root, parts, parted⟩ := path
  unfold text
  split_ifs with here
  · obtain ⟨rfl, rfl⟩ := here
    rfl
  · ext1
    · exact rootOf_append root (head_intercalate parted)
    · exact (partsOf_slashes _ _).trans (partsOf_intercalate parted)

/-- A name is a part, and no root. -/
theorem isPart_of_name (name : IsName segment) : IsPart segment := by
  refine ⟨?_, ?_, fun slash => ?_⟩
  · rintro rfl
    obtain ⟨_, ⟨⟩, _⟩ := name.lettered
  · rintro rfl
    obtain ⟨code, member, letter⟩ := name.lettered
    cases List.mem_singleton.mp member
    cases letter
  · cases name.plain _ slash

theorem join_name (path : Posix) (name : IsName segment) :
    (path.join segment).root = path.root ∧ (path.join segment).parts = path.parts ++ [segment] := by
  have part : ∀ other ∈ [segment], IsPart other := List.forall_mem_singleton.mpr (isPart_of_name name)
  have alone : [0x2F].intercalate [segment] = segment := List.intercalate_singleton
  have rootless : rootOf segment = 0 := by
    have read := rootOf_append 0 (head_intercalate part)
    rwa [alone] at read
  have read := partsOf_intercalate part
  rw [alone] at read
  rw [join, if_neg (not_not_intro rootless)]
  exact ⟨rfl, congrArg (path.parts ++ ·) read⟩

end Posix

theorem posix_lawful : posix.Lawful where
  parse_text := Posix.parse_text
  join_nil path := Posix.ext rfl (List.append_nil _)
  absolute_join {path segment} absolute name := by
    show decide ((Posix.join path segment).root ≠ 0) = true
    rw [(Posix.join_name path name).1]
    exact absolute
  join_ne {path segment} _ name same := by
    have longer := congrArg (fun path => path.parts.length) same
    simp only [posix, (Posix.join_name path name).2, List.length_append, List.length_singleton] at longer
    omega
  join_inj {path path' segment segment'} _ _ name name' same := by
    have roots := congrArg Posix.root same
    have parts := congrArg Posix.parts same
    simp only [posix, (Posix.join_name path name).1, (Posix.join_name path' name').1] at roots
    simp only [posix, (Posix.join_name path name).2, (Posix.join_name path' name').2] at parts
    obtain ⟨above, last⟩ := List.append_inj' parts rfl
    exact ⟨Posix.ext roots above, List.singleton_inj.mp last⟩

end Posix

end Paths
