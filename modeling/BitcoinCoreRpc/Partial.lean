/-
This file is a document read up to somewhere inside it, as a library.

A reader stands in a place: the containers it entered and has not left, and whether a
value follows. What may still come is a text that completes the place, and a text that
was read leads from one place to another when whatever completes the second completes
the first once that text is put before it. Reading is then composed step by step, by
whoever does the steps and in whatever order, and a reader that got from the beginning
of a value to its end has read one.

The grammar is bounded in two ways a reader may bound it, by the numbers it takes and by
how deep it lets containers nest, and a reader may or may not let white space follow the
value it reads.
-/

import BitcoinCoreRpc.Tokens

namespace JsonText

/-! ### Entries -/

/-- What a reader takes of a slot ahead of its value, the white space before the value left: nothing
in an array, the member's name and its colon in an object. -/
inductive Entry : Kind → Type
  | item : Entry .array
  | member (pad : Blank) (name : List Piece) (gap : Blank) : Entry .object

def Entry.text {kind : Kind} : Entry kind → List Nat
  | .item => []
  | .member pad name gap => pad.codes ++ quoted name ++ (gap.codes ++ [0x3A])

/-- The head of a slot whose value has white space before it. -/
def Entry.head {kind : Kind} (lead : Blank) : Entry kind → Head kind
  | .item => .item lead
  | .member pad name gap => .member pad name gap lead

theorem Entry.head_text {kind : Kind} (slot : Entry kind) (lead : Blank) :
    (slot.head lead).text = slot.text ++ lead.codes := by
  cases slot with
  | item => rfl
  | member pad name gap => simp [Entry.head, Entry.text, Head.text]

theorem Head.exists_entry {kind : Kind} (head : Head kind) :
    ∃ (slot : Entry kind) (lead : Blank), head.text = slot.text ++ lead.codes := by
  cases head with
  | item pad => exact ⟨.item, pad, rfl⟩
  | member pad name gap lead =>
    exact ⟨.member pad name gap, lead, by simp [Head.text, Entry.text]⟩

/-- Two runs of white space in a row. -/
def Blank.append (first second : Blank) : Blank :=
  ⟨first.codes ++ second.codes, fun code member =>
    (List.mem_append.mp member).elim (first.blank code) (second.blank code)⟩

theorem blank_nil : ∀ code ∈ ([] : List Nat), isBlank code = true := nofun

/-- No white space. -/
def Blank.none : Blank :=
  ⟨[], blank_nil⟩

/-! ### Places -/

/-- Where a reader stands: the containers it entered and has not left, the innermost first, and
whether a value follows. -/
structure Place where
  stack : List Kind
  due : Bool

/-- A bound on nesting, where there is one, has room for a depth. -/
def Allows (limit : Option Nat) (depth : Nat) : Prop :=
  ∀ most ∈ limit, depth ≤ most

theorem Allows.mono {limit : Option Nat} {depth less : Nat} (allows : Allows limit depth)
    (le : less ≤ depth) : Allows limit less :=
  fun most member => le.trans (allows most member)

section Completion

variable (holds : Number → Prop) (limit : Option Nat) (ends : List Nat → Prop)

/-- A text ends the containers of a stack, a value of the innermost having just been read. -/
def Closes : List Kind → List Nat → Prop
  | [], text => ends text
  | kind :: stack, text =>
    ∃ (tail : Tail kind) (rest : List Nat), text = tail.text ++ rest ∧ tail.Numbers holds ∧
      Allows limit (tail.depth + stack.length + 1) ∧ Closes stack rest

/-- A text is what is left of a value from a place on. -/
def Completes (place : Place) (text : List Nat) : Prop :=
  if place.due then
    ∃ (pad : Blank) (value : Value) (rest : List Nat), text = pad.codes ++ value.text ++ rest ∧
      value.Numbers holds ∧ Allows limit (value.depth + place.stack.length) ∧
        Closes holds limit ends place.stack rest
  else Closes holds limit ends place.stack text

/-- A text takes a reader from one place to another. -/
def Leads (start : Place) (text : List Nat) (goal : Place) : Prop :=
  ∀ later, Completes holds limit ends goal later → Completes holds limit ends start (text ++ later)

variable {holds limit ends}

theorem Leads.refl (place : Place) : Leads holds limit ends place [] place :=
  fun _ completes => completes

theorem Leads.trans {start between goal : Place} {text more : List Nat}
    (first : Leads holds limit ends start text between)
    (second : Leads holds limit ends between more goal) :
    Leads holds limit ends start (text ++ more) goal := by
  intro later completes
  rw [List.append_assoc]
  exact first _ (second later completes)

variable {stack : List Kind} {kind : Kind}

/-- White space stands before any value. -/
theorem Leads.pad (pad : Blank) : Leads holds limit ends ⟨stack, true⟩ pad.codes ⟨stack, true⟩ := by
  rintro later ⟨lead, value, rest, rfl, numbers, fits, closes⟩
  exact ⟨pad.append lead, value, rest, by simp [Blank.append], numbers, fits, closes⟩

/-- White space stands before a comma and before a closing bracket. -/
theorem Leads.gap (pad : Blank) :
    Leads holds limit ends ⟨kind :: stack, false⟩ pad.codes ⟨kind :: stack, false⟩ := by
  rintro later ⟨tail, rest, rfl, numbers, fits, closes⟩
  cases tail with
  | close lead =>
    exact ⟨.close (pad.append lead), rest, by simp [Blank.append, Tail.text], numbers, fits, closes⟩
  | more lead head value tail =>
    exact ⟨.more (pad.append lead) head value tail, rest, by simp [Blank.append, Tail.text], numbers,
      fits, closes⟩

/-- A whole value is read at once. -/
theorem Leads.value {value : Value} (numbers : value.Numbers holds)
    (fits : Allows limit (value.depth + stack.length)) :
    Leads holds limit ends ⟨stack, true⟩ value.text ⟨stack, false⟩ :=
  fun later closes => ⟨.none, value, later, rfl, numbers, fits, closes⟩

/-- A container with a value in it is entered. -/
theorem Leads.enter (slot : Entry kind) :
    Leads holds limit ends ⟨stack, true⟩ (kind.opener :: slot.text) ⟨kind :: stack, true⟩ := by
  rintro later ⟨lead, value, _, rfl, valueNumbers, valueFits, tail, rest, rfl, tailNumbers,
    tailFits, closes⟩
  refine ⟨.none, .full kind (slot.head lead) value tail, rest, ?_, ⟨valueNumbers, tailNumbers⟩, ?_,
    closes⟩
  · simp [Value.text, Entry.head_text, Blank.none]
  · intro most member
    have := valueFits most member
    have := tailFits most member
    simp only [List.length_cons] at *
    simp only [Value.depth]
    omega

/-- White space past the bracket is the first slot's. -/
theorem Leads.enter_pad (lead : Blank) (slot : Entry kind) :
    Leads holds limit ends ⟨stack, true⟩ (kind.opener :: (lead.codes ++ slot.text))
      ⟨kind :: stack, true⟩ := by
  cases slot with
  | item =>
    rw [Entry.text, List.append_nil]
    exact Leads.trans (.enter .item) (.pad lead)
  | member pad name gap =>
    have texts : lead.codes ++ (Entry.member pad name gap).text =
        (Entry.member (lead.append pad) name gap).text := by
      simp [Entry.text, Blank.append]
    rw [texts]
    exact .enter (.member (lead.append pad) name gap)

/-- A comma and the next slot are read. -/
theorem Leads.next (slot : Entry kind) :
    Leads holds limit ends ⟨kind :: stack, false⟩ (0x2C :: slot.text) ⟨kind :: stack, true⟩ := by
  rintro later ⟨lead, value, _, rfl, valueNumbers, valueFits, tail, rest, rfl, tailNumbers,
    tailFits, closes⟩
  refine ⟨.more .none (slot.head lead) value tail, rest, ?_, ⟨valueNumbers, tailNumbers⟩, ?_,
    closes⟩
  · simp [Tail.text, Entry.head_text, Blank.none]
  · intro most member
    have := valueFits most member
    have := tailFits most member
    simp only [List.length_cons] at *
    simp only [Tail.depth]
    omega

/-- A container is left. -/
theorem Leads.leave (fits : Allows limit (stack.length + 1)) :
    Leads holds limit ends ⟨kind :: stack, false⟩ [kind.closer] ⟨stack, false⟩ := by
  intro later closes
  refine ⟨.close .none, later, rfl, trivial, ?_, closes⟩
  rwa [Tail.depth, Nat.zero_add]

/-- White space follows the value, where it may. -/
theorem Leads.trail (pad : Blank) (trails : ∀ text, ends text → ends (pad.codes ++ text)) :
    Leads holds limit ends ⟨[], false⟩ pad.codes ⟨[], false⟩ :=
  trails

/-- What led from before a value to behind it is a value. -/
theorem Leads.value_of {text : List Nat} (nothing : ends [])
    (leads : Leads holds limit ends ⟨[], true⟩ text ⟨[], false⟩) :
    ∃ (pad : Blank) (value : Value) (rest : List Nat), text = pad.codes ++ value.text ++ rest ∧
      value.Numbers holds ∧ Allows limit value.depth ∧ ends rest := by
  obtain ⟨pad, value, rest, whole, numbers, fits, ended⟩ := leads [] nothing
  refine ⟨pad, value, rest, ?_, numbers, fits, ended⟩
  rwa [List.append_nil] at whole

end Completion

end JsonText
