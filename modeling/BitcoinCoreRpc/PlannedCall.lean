/-
This file proves that a walk written as a program comes to what the same program comes to
over the json value `call` answers.

A plan is read twice: as the walk of a stream, octet by octet as the reply arrives, and as
a fold over the value once it is parsed. The two meet at the tree of the result, where a
name stands once in an object and none is too long to be yielded. What a plan takes there
it folds to the same, and what it folds to it takes, within the bounds of the stream.
-/

import BitcoinCoreRpc.Plan
import BitcoinCoreRpc.StreamedWalk

namespace BitcoinCoreRpc

open JsonText Steps

/-! ### A plan over a parsed value -/

/-- What the first character of a value's text would tell. -/
def Json.shape : Json → Shape
  | .null | .bool _ => .literal
  | .int _ | .decimal _ => .number
  | .string _ => .string
  | .array _ => .container .array
  | .object _ => .container .object

/-- What a loop over a value yields: nothing where the value is no container of the kind. -/
def Json.slots : Kind → Json → Option (List (Option Str × Json))
  | .array, .array items => some (items.map fun item => (none, item))
  | .object, .object members => some (members.map fun member => (some member.1, member.2))
  | _, _ => none

section Fold

variable {σ : Type}

/-- The slots of a container, folded in order. -/
def foldSlots (fold : Nat → Option Str → Json → σ → Option σ) :
    Nat → List (Option Str × Json) → σ → Option σ
  | _, [], state => some state
  | index, slot :: rest, state => do
    let state ← fold index slot.1 slot.2 state
    foldSlots fold (index + 1) rest state

/-- A plan over a parsed value: nothing where a loop is at no container of its kind. -/
def Plan.fold : Plan σ → Json → σ → Option σ
  | .skip, _, state => some state
  | .value _ take, json, state => some (take json state)
  | .each kind slot, json, state => do
    foldSlots (fun index found => (slot index found).fold) 0 (← json.slots kind) state
  | .given on, json, state => (on state).fold json state
  | .peek on, json, state => (on json.shape).fold json state

end Fold

/-! ### What a container is parsed to -/

section Containers

variable {py : Interpreter} {kind : Kind}

/-- A value that was built is one that is kept so. -/
theorem kept_of_built {codes octets : Value} {budget : Nat} {first : Json}
    (values : Encodes codes octets) (scalar : ∀ code ∈ codes.text, Utf8.IsScalar code)
    (room : budget ≤ py.nesting) (built : build py codes budget = .ok first) :
    keptValue py octets.text = .ok first := by
  have shallow := ((build_isOk py codes budget).mp ⟨first, built⟩).1
  rw [keptValue_encodes values scalar]
  exact build_budget py codes built (shallow.trans room)

/-- The items of an array, parsed each as it is kept. -/
theorem items_of_builtTail {budget : Nat} (room : budget ≤ py.nesting) :
    {codes octets : Tail .array} → {pairs : List (Str × Json)} → TailEncodes codes octets →
      (∀ code ∈ codes.text, Utf8.IsScalar code) → buildTail py codes budget = .ok pairs →
        List.Forall₂ (fun slot json => keptValue py slot.2.text = .ok json) octets.slots
          (pairs.map Prod.snd)
  | _, _, _, .close pad, _, built => by
    cases built
    exact .nil
  | _, _, _, @TailEncodes.more _ pad head head' codes octets tail tail' heads values tails, scalar,
    built => by
    rw [buildTail] at built
    obtain ⟨first, firstBuilt, built⟩ := bind_eq_ok built
    obtain ⟨others, othersBuilt, done⟩ := bind_eq_ok built
    cases done
    have parts : ∀ code ∈ head.text ++ codes.text ++ tail.text, Utf8.IsScalar code :=
      fun code member => scalar code (List.mem_append_right _ (List.mem_cons_of_mem _ member))
    have split := List.forall_mem_append.mp parts
    exact .cons (kept_of_built values (fun code member => split.1 code (List.mem_append_right _ member))
      room firstBuilt) (items_of_builtTail room tails split.2 othersBuilt)

/-- What is kept of a text is what the tree of its code points builds. -/
theorem exists_built {value : Value} {json : Json} (kept : keptValue py value.text = .ok json) :
    ∃ codes, Encodes codes value ∧ (∀ code ∈ codes.text, Utf8.IsScalar code) ∧
      build py codes py.nesting = .ok json := by
  cases decoded : Utf8.decode false value.text with
  | none =>
    rw [keptValue, decoded] at kept
    cases kept
  | some chars =>
    obtain ⟨codes, encodes, rfl, built⟩ := @keptValue_text py value chars decoded
    exact ⟨codes, encodes, (Utf8.decode_eq_some_iff.mp decoded).2, built ▸ kept⟩

/-- The shape of what a value is parsed to is told by its first character. -/
theorem shape_of_kept {value : Value} {json : Json} (kept : keptValue py value.text = .ok json) :
    json.shape = valueShape value := by
  obtain ⟨codes, encodes, _, built⟩ := exists_built kept
  cases encodes with
  | literal which => cases which <;> cases built <;> rfl
  | number number =>
    rw [build, buildNumber] at built
    split_ifs at built
    · obtain ⟨_, _, rfl⟩ := map_eq_ok built
      rfl
    · obtain ⟨_, _, rfl⟩ := map_eq_ok built
      rfl
  | string spelled =>
    cases built
    rfl
  | empty kind pad =>
    generalize py.nesting = budget at built
    cases budget with
    | zero => cases built
    | succ budget =>
      cases built
      cases kind <;> rfl
  | @full kind head head' codes octets tail tail' heads values tails =>
    generalize py.nesting = budget at built
    cases budget with
    | zero => cases built
    | succ budget =>
      rw [build] at built
      obtain ⟨_, _, built⟩ := bind_eq_ok built
      obtain ⟨_, _, done⟩ := bind_eq_ok built
      cases done
      cases kind <;> rfl

/-- A name short enough to be yielded. -/
def Short : Head kind → Prop
  | .item _ => True
  | .member _ pieces _ _ => (quoted pieces).length ≤ maxStreamName

/-- Two members are not called the same. -/
def Unlike (py : Interpreter) (first second : Head kind × Value) : Prop :=
  ∀ name, Called py first.1 (some name) → ¬Called py second.1 (some name)

/-- A value whose objects, at any depth, have no name twice and none that is too long. -/
inductive Plain (py : Interpreter) : Value → Prop
  | flat {value : Value} (flat : value.depth = 0) : Plain py value
  | container {kind : Kind} {value : Value} {slots : List (Head kind × Value)}
    (holds : HasSlots value slots) (short : ∀ slot ∈ slots, Short slot.1)
    (distinct : slots.Pairwise (Unlike py)) (inner : ∀ slot ∈ slots, Plain py slot.2) :
    Plain py value

/-- A slot as a loop over the parsed value yields it. -/
structure Yielded (py : Interpreter) (slot : Head kind × Value) (pair : Option Str × Json) : Prop where
  called : Called py slot.1 pair.1
  value : keptValue py slot.2.text = .ok pair.2

theorem Plain.of_holds {value : Value} {slots : List (Head kind × Value)} (plain : Plain py value)
    (holds : HasSlots value slots) : (∀ slot ∈ slots, Short slot.1) ∧ slots.Pairwise (Unlike py) ∧
      ∀ slot ∈ slots, Plain py slot.2 := by
  cases plain with
  | flat flat => cases holds <;> simp [Value.depth] at flat
  | container holds' short distinct inner =>
    cases holds with
    | empty pad =>
      cases holds'
      exact ⟨short, distinct, inner⟩
    | full head value tail =>
      cases holds'
      exact ⟨short, distinct, inner⟩

theorem yielded_of_items {slots : List (Head .array × Value)} {items : List Json}
    (parsed : List.Forall₂ (fun slot json => keptValue py slot.2.text = .ok json) slots items) :
    List.Forall₂ (Yielded py) slots (items.map fun item => (none, item)) := by
  rw [List.forall₂_map_right_iff]
  refine parsed.imp fun slot json kept => ⟨?_, kept⟩
  obtain ⟨⟨pad⟩, value⟩ := slot
  rfl

theorem exists_slot_of_pair {slots : List (Head .object × Value)} {pairs : List (Str × Json)}
    (parsed : List.Forall₂ (Parsed py) slots pairs) :
    ∀ pair ∈ pairs, ∃ slot ∈ slots, Parsed py slot pair := by
  intro pair member
  obtain ⟨index, here, rfl⟩ := List.getElem_of_mem member
  have same := parsed.length_eq
  exact ⟨slots[index], List.getElem_mem _, parsed.get (same ▸ here) here⟩

theorem called_of_named {head : Head .object} {name : Str} (short : Short head)
    (named : Named py head name) : Called py head (some name) := by
  cases head with | member pad pieces gap lead => exact ⟨short, named⟩

/-- Members no two of which are called the same are those of the dict. -/
theorem yielded_of_members {slots : List (Head .object × Value)} {pairs : List (Str × Json)}
    (parsed : List.Forall₂ (Parsed py) slots pairs) (short : ∀ slot ∈ slots, Short slot.1)
    (distinct : slots.Pairwise (Unlike py)) :
    (pairs.map Prod.fst).Nodup ∧
      List.Forall₂ (Yielded py) slots (pairs.map fun member => (some member.1, member.2)) := by
  induction parsed with
  | nil => exact ⟨List.nodup_nil, .nil⟩
  | @cons slot pair slots pairs first others inductionHypothesis =>
    obtain ⟨short_, short⟩ := List.forall_mem_cons.mp short
    obtain ⟨apart, distinct⟩ := List.pairwise_cons.mp distinct
    obtain ⟨nodup, yielded⟩ := inductionHypothesis short distinct
    have called := called_of_named short_ first.name
    refine ⟨List.nodup_cons.mpr ⟨fun inside => ?_, nodup⟩, .cons ⟨called, first.value⟩ yielded⟩
    obtain ⟨pair', member, same⟩ := List.mem_map.mp inside
    obtain ⟨slot', member', named⟩ := exists_slot_of_pair others pair' member
    exact apart slot' member' _ called (called_of_named (short slot' member') (same ▸ named.name))

/-- A plain container is parsed to the slots a loop over it yields. -/
theorem exists_slots {value : Value} {slots : List (Head kind × Value)} {json : Json}
    (plain : Plain py value) (holds : HasSlots value slots) (kept : keptValue py value.text = .ok json) :
    ∃ pairs, json.slots kind = some pairs ∧ List.Forall₂ (Yielded py) slots pairs := by
  obtain ⟨short, distinct, _⟩ := plain.of_holds holds
  obtain ⟨codes, encodes, scalar, built⟩ := exists_built kept
  cases kind with
  | object =>
    have isObject : value.IsObject := by cases holds <;> trivial
    have members : value.members = slots := by cases holds <;> rfl
    obtain ⟨pairs, rfl, parsed⟩ := parsed_of_object encodes isObject scalar le_rfl built
    obtain ⟨nodup, yielded⟩ := yielded_of_members (members ▸ parsed) short distinct
    refine ⟨_, ?_, yielded⟩
    rw [Dict.ofPairs_of_nodup nodup]
    rfl
  | array =>
    generalize budget : py.nesting = nesting at built
    cases holds with
    | empty pad =>
      cases encodes
      cases nesting with
      | zero => cases built
      | succ nesting =>
        cases built
        exact ⟨[], rfl, .nil⟩
    | full head first tail =>
      cases encodes with | @full _ head' _ codes _ tail' _ heads values tails =>
      cases nesting with
      | zero => cases built
      | succ nesting =>
        rw [build] at built
        obtain ⟨first', firstBuilt, built⟩ := bind_eq_ok built
        obtain ⟨others, othersBuilt, done⟩ := bind_eq_ok built
        cases done
        have parts : ∀ code ∈ head'.text ++ codes.text ++ tail'.text, Utf8.IsScalar code :=
          fun code member => scalar code (List.mem_cons_of_mem _ member)
        have split := List.forall_mem_append.mp parts
        have less : nesting ≤ py.nesting := budget ▸ Nat.le_succ nesting
        have first_ := kept_of_built values
          (fun code member => split.1 code (List.mem_append_right _ member)) less firstBuilt
        exact ⟨_, rfl, yielded_of_items (.cons first_ (items_of_builtTail less tails split.2 othersBuilt))⟩

end Containers

/-! ### What a plan takes and what it folds to -/

section Agreement

variable {σ : Type} {py : Interpreter} {kind : Kind}

/-- Slots taken in order are folded in order, where each is. -/
theorem foldSlots_of_folds {takes : Nat → Option Str → Value → σ → σ → Prop}
    {fold : Nat → Option Str → Json → σ → Option σ} {index : Nat}
    {slots : List (Head kind × Value)} {pairs : List (Option Str × Json)} {state final : σ}
    (folds : Folds py takes index slots state final) (yielded : List.Forall₂ (Yielded py) slots pairs)
    (each : ∀ slot ∈ slots, ∀ index found json (state final : σ),
      keptValue py slot.2.text = .ok json → takes index found slot.2 state final →
        fold index found json state = some final) :
    foldSlots fold index pairs state = some final := by
  induction folds generalizing pairs with
  | nil index state =>
    cases yielded
    rfl
  | cons called first rest inductionHypothesis =>
    cases yielded with | cons yields others =>
    obtain ⟨here, later⟩ := List.forall_mem_cons.mp each
    obtain rfl := called_unique called yields.called
    rw [foldSlots, here _ _ _ _ _ yields.value first]
    exact inductionHypothesis others later

/-- What a plan takes of a plain value is what it folds to. -/
theorem Plan.fold_of_takes (plan : Plan σ) {value : Value} {json : Json} {state final : σ}
    (plain : Plain py value) (kept : keptValue py value.text = .ok json)
    (takes : plan.Takes py value state final) : plan.fold json state = some final := by
  induction plan generalizing value json state final with
  | skip => rw [takes.2, fold]
  | value limit take =>
    obtain ⟨_, ⟨_, _, built⟩, rfl⟩ := takes
    rw [fold, Except.ok.inj (kept.symm.trans built)]
  | each kind slot inductionHypothesis =>
    obtain ⟨slots, holds, folds⟩ := takes
    obtain ⟨pairs, told, yielded⟩ := exists_slots plain holds kept
    have inner := (plain.of_holds holds).2.2
    rw [fold, told]
    exact foldSlots_of_folds folds yielded fun slot member index found json state final kept takes =>
      inductionHypothesis index found (inner slot member) kept takes
  | given on inductionHypothesis => exact inductionHypothesis state plain kept takes
  | peek on inductionHypothesis =>
    rw [fold, shape_of_kept kept]
    exact inductionHypothesis _ plain kept takes

/-- Slots folded in order are taken in order, where each is. -/
theorem folds_of_foldSlots {takes : Nat → Option Str → Value → σ → σ → Prop}
    {fold : Nat → Option Str → Json → σ → Option σ} {index : Nat}
    {slots : List (Head kind × Value)} {pairs : List (Option Str × Json)} {state final : σ}
    (yielded : List.Forall₂ (Yielded py) slots pairs)
    (folded : foldSlots fold index pairs state = some final)
    (each : ∀ slot ∈ slots, ∀ index found json (state final : σ),
      keptValue py slot.2.text = .ok json → fold index found json state = some final →
        takes index found slot.2 state final) :
    Folds py takes index slots state final := by
  induction yielded generalizing index state with
  | nil =>
    cases folded
    exact .nil _ _
  | cons yields others inductionHypothesis =>
    obtain ⟨here, later⟩ := List.forall_mem_cons.mp each
    obtain ⟨between, first, rest⟩ := Option.bind_eq_some_iff.mp folded
    exact .cons yields.called (here _ _ _ _ _ yields.value first) (inductionHypothesis rest later)

theorem length_of_slots : (tail : Tail kind) → (slot : Head kind × Value) → slot ∈ tail.slots →
    slot.2.text.length ≤ tail.text.length
  | .close _, _, member => absurd member List.not_mem_nil
  | .more _ _ value tail, slot, member => by
    rcases List.mem_cons.mp member with rfl | member
    · simp only [Tail.text, List.length_append, List.length_cons]
      omega
    · have later := length_of_slots tail slot member
      simp only [Tail.text, List.length_append, List.length_cons]
      omega

theorem HasSlots.length_le {value : Value} {slots : List (Head kind × Value)}
    (holds : HasSlots value slots) : ∀ slot ∈ slots, slot.2.text.length ≤ value.text.length := by
  cases holds with
  | empty pad => exact List.forall_mem_nil _
  | full head value tail =>
    refine List.forall_mem_cons.mpr ⟨?_, fun slot member => (length_of_slots tail slot member).trans ?_⟩
    · simp only [Value.text, List.length_append, List.length_cons]
      omega
    · simp only [Value.text, List.length_append, List.length_cons]
      omega

theorem HasSlots.numbers {holds : Number → Prop} {value : Value} {slots : List (Head kind × Value)}
    (here : HasSlots value slots) : value.Numbers holds ↔ ∀ slot ∈ slots, slot.2.Numbers holds := by
  cases here with
  | empty pad => simp [Value.Numbers]
  | full head value tail => simp [Value.Numbers, tail.numbers_slots]

theorem HasSlots.skipped {value : Value} {slots : List (Head kind × Value)} (holds : HasSlots value slots)
    (skipped : Skipped py value) : ∀ slot ∈ slots, Skipped py slot.2 := by
  intro slot member
  refine ⟨holds.numbers.mp skipped.1 slot member, ?_⟩
  have shallow := skipped.2
  cases holds with
  | empty pad => cases member
  | full head value tail =>
    rw [Value.depth] at shallow
    rcases List.mem_cons.mp member with rfl | later
    · exact (le_max_left _ _).trans (Nat.le_of_succ_le shallow)
    · exact tail.depth_slots.mp ((le_max_right _ _).trans (Nat.le_of_succ_le shallow)) slot later

theorem exists_holds {value : Value} (shape : valueShape value = .container kind) :
    ∃ slots : List (Head kind × Value), HasSlots value slots := by
  cases value with
  | empty _ pad =>
    cases shape
    exact ⟨[], .empty _ pad⟩
  | full _ head value tail =>
    cases shape
    exact ⟨_, .full head value tail⟩
  | _ => cases shape

theorem shape_of_slots {json : Json} {pairs : List (Option Str × Json)}
    (told : json.slots kind = some pairs) : json.shape = .container kind := by
  cases json <;> cases kind <;> cases told <;> rfl

theorem Plan.Limits.mono {holds weaker : Int → Prop} (implies : ∀ limit, holds limit → weaker limit)
    {plan : Plan σ} (limits : plan.Limits holds) : plan.Limits weaker := by
  induction plan with
  | skip => trivial
  | value limit take => exact implies limit limits
  | each kind slot inductionHypothesis =>
    exact fun index found => inductionHypothesis index found (limits index found)
  | given on inductionHypothesis => exact fun state => inductionHypothesis state (limits state)
  | peek on inductionHypothesis => exact fun shape => inductionHypothesis shape (limits shape)

/-- What a plan folds to it takes of a plain value, within the bounds of the stream and where every
limit of the plan has room for the whole value. -/
theorem Plan.takes_of_fold (plan : Plan σ) {value : Value} {json : Json} {state final : σ}
    (plain : Plain py value) (kept : keptValue py value.text = .ok json)
    (skipped : Skipped py value) (fits : plan.Limits fun limit => (value.text.length : Int) ≤ limit)
    (folded : plan.fold json state = some final) : plan.Takes py value state final := by
  induction plan generalizing value json state final with
  | skip => exact ⟨skipped, (Option.some.inj folded).symm⟩
  | value limit take => exact ⟨json, ⟨skipped, fits, kept⟩, (Option.some.inj folded).symm⟩
  | each kind slot inductionHypothesis =>
    obtain ⟨pairs, told, folded⟩ := Option.bind_eq_some_iff.mp folded
    obtain ⟨slots, holds⟩ := exists_holds ((shape_of_kept kept).symm.trans (shape_of_slots told))
    obtain ⟨pairs', told', yielded⟩ := exists_slots plain holds kept
    obtain rfl := Option.some.inj (told.symm.trans told')
    have inner := (plain.of_holds holds).2.2
    refine ⟨slots, holds, folds_of_foldSlots yielded folded ?_⟩
    intro slot member index found json state final kept folded
    have shorter : (slot.2.text.length : Int) ≤ value.text.length :=
      Int.ofNat_le.mpr (holds.length_le slot member)
    exact inductionHypothesis index found (inner slot member) kept (holds.skipped skipped slot member)
      ((fits index found).mono fun _ room => shorter.trans room) folded
  | given on inductionHypothesis => exact inductionHypothesis state plain kept skipped (fits state) folded
  | peek on inductionHypothesis =>
    rw [fold, shape_of_kept kept] at folded
    exact inductionHypothesis _ plain kept skipped (fits _) folded

theorem Folds.forall_slots {takes : Nat → Option Str → Value → σ → σ → Prop} {holds : Value → Prop}
    {index : Nat} {slots : List (Head kind × Value)} {state final : σ}
    (folds : Folds py takes index slots state final)
    (each : ∀ index found value (state final : σ), takes index found value state final →
      holds value) : ∀ slot ∈ slots, holds slot.2 := by
  induction folds with
  | nil => exact List.forall_mem_nil _
  | cons called first rest inductionHypothesis =>
    exact List.forall_mem_cons.mpr ⟨each _ _ _ _ _ first, inductionHypothesis⟩

/-- The numbers of a value that a plan takes are of a stream. -/
theorem Plan.Takes.numbers {plan : Plan σ} {value : Value} {state final : σ}
    (takes : plan.Takes py value state final) : value.Numbers (Streams py) := by
  induction plan generalizing value state final with
  | skip => exact takes.1.1
  | value limit take =>
    obtain ⟨_, ⟨⟨numbers, _⟩, _⟩, _⟩ := takes
    exact numbers
  | each kind slot inductionHypothesis =>
    obtain ⟨slots, holds, folds⟩ := takes
    exact holds.numbers.mpr (folds.forall_slots fun index found _ _ _ => inductionHypothesis index found)
  | given on inductionHypothesis => exact inductionHypothesis state takes
  | peek on inductionHypothesis => exact inductionHypothesis _ takes

end Agreement

/-! ### A reply read under a plan -/

section Readings

variable {α β : Type} {py : Interpreter} {where_ : Str} {maxBodySize : Int} {related : α → β → Prop}
  {reads : Value → α → Prop} {reads' : Value → β → Prop} {slots : List (Head .object × Value)}

/-- Two readings of a reply that keep the same of it, their answers to `result` related. -/
def Kept.Alike (related : α → β → Prop) (kept : Kept α) (kept' : Kept β) : Prop :=
  kept.members = kept'.members ∧ Option.Rel related kept.answer kept'.answer

/-- What collects for one walk collects for another, its answers related, where each result is read
by both. -/
theorem Collects.alike {kept final : Kept α} {kept' : Kept β}
    (collects : Collects py maxBodySize reads kept slots final) (alike : kept.Alike related kept')
    (readable : ∀ slot ∈ slots, Named py slot.1 (str "result") → ∀ answer, reads slot.2 answer →
      ∃ answer', reads' slot.2 answer' ∧ related answer answer') :
    ∃ final', Collects py maxBodySize reads' kept' slots final' ∧ final.Alike related final' := by
  induction collects generalizing kept' with
  | nil kept => exact ⟨kept', .nil _, alike⟩
  | @result kept final head value answer slots named fresh read rest inductionHypothesis =>
    obtain ⟨here, later⟩ := List.forall_mem_cons.mp readable
    obtain ⟨answer', read', relates⟩ := here named.2 answer read
    have next : Kept.Alike related ⟨kept.members.set (str "result") .null, some answer⟩
        ⟨kept'.members.set (str "result") .null, some answer'⟩ :=
      ⟨congrArg (Dict.set · _ _) alike.1, .some relates⟩
    obtain ⟨final', collects', same⟩ := inductionHypothesis next later
    exact ⟨final', .result named (alike.1 ▸ fresh) read' collects', same⟩
  | @envelope kept final head value name json slots named member fresh kept_ rest
      inductionHypothesis =>
    have next : Kept.Alike related ⟨kept.members.set name json, kept.answer⟩
        ⟨kept'.members.set name json, kept'.answer⟩ :=
      ⟨congrArg (Dict.set · _ _) alike.1, alike.2⟩
    obtain ⟨final', collects', same⟩ :=
      inductionHypothesis next (List.forall_mem_cons.mp readable).2
    exact ⟨final', .envelope named member (alike.1 ▸ fresh) kept_ collects', same⟩
  | other named unasked skipped rest inductionHypothesis =>
    obtain ⟨final', collects', same⟩ :=
      inductionHypothesis alike (List.forall_mem_cons.mp readable).2
    exact ⟨final', .other named (alike.1 ▸ unasked) skipped collects', same⟩

/-- Two outcomes are one refusal, or answers that are related. -/
inductive Ends (related : α → β → Prop) : Except Exc α → Except Exc β → Prop
  | answer {first : α} {second : β} (relates : related first second) :
    Ends related (.ok first) (.ok second)
  | refusal (e : Exc) : Ends related (.error e) (.error e)

theorem Ends.map {γ : Type} {f : α → γ} {weaker : γ → β → Prop} {first : Except Exc α}
    {second : Except Exc β} (ends : Ends related first second)
    (implies : ∀ answer answer', related answer answer' → weaker (f answer) answer') :
    Ends weaker (first.map f) second := by
  cases ends with
  | answer relates => exact .answer (implies _ _ relates)
  | refusal e => exact .refusal e

/-- Readings that keep the same conclude alike. -/
theorem concluded_alike {requestId : Str} {kept : Kept α} {kept' : Kept β}
    (alike : kept.Alike related kept') :
    Ends related (concluded py where_ requestId kept) (concluded py where_ requestId kept') := by
  obtain ⟨members, answer⟩ := kept
  obtain ⟨members', answer'⟩ := kept'
  obtain ⟨rfl, relates⟩ := alike
  unfold concluded
  cases discriminate py where_ requestId 200 members with
  | error e => exact .refusal e
  | ok value =>
    cases relates with
    | some relates => exact .answer relates
    | none => exact .refusal _

/-- The reader answers what is said of the members it kept of a body that its walk reads. -/
theorem streamedResult_of_answers {walk : StreamStep α} {requestId : Str} {source : List Arrival}
    {final : Kept α} (answers : WalkAnswers walk reads) (complete : Complete source)
    (received : Received py maxBodySize reads (contents source) final) :
    streamedResult py where_ walk maxBodySize requestId 200 source =
      (concluded py where_ requestId final).map .inr := by
  obtain ⟨accepts, object, ⟨⟨lead, trail, text⟩, isObject⟩, collects⟩ := received
  obtain ⟨after, read⟩ := @readReply_of_collects _ _ where_ _ _ _ (Stream.new source) answers lead
    trail object final (Stream.Ready.new complete).sane ⟨complete, accepts⟩ rfl text isObject collects
  unfold streamedResult
  rw [if_neg (by simp), read]

/-- It refuses every other body. -/
theorem streamedResult_of_unread {walk : StreamStep α} {requestId : Str} {source : List Arrival}
    (sound : WalkReads walk reads) (proper : WalkProper (fun _ => False) where_ walk)
    (positive : 0 ≤ maxBodySize) (deep : maxStreamDepth ≤ py.nesting) (complete : Complete source)
    (other : ∀ final, ¬Received py maxBodySize reads (contents source) final) :
    IsFetchError (streamedResult py where_ walk maxBodySize requestId 200 source) := by
  unfold streamedResult
  rw [if_neg (by simp)]
  rcases ran : readReply py where_ walk maxBodySize (Stream.new source) with ⟨e | final, after⟩
  · obtain ⟨message, rfl⟩ := readReply_eq_error proper positive deep complete ran
    exact ⟨message, rfl⟩
  · obtain ⟨lead, trail, object, text, isObject, collects, accepts⟩ :=
      readReply_eq_ok sound (Stream.Ready.new complete).sane rfl ran
    exact absurd ⟨accepts, object, ⟨⟨lead, trail, text⟩, isObject⟩, collects⟩ (other final)

end Readings

section Planned

variable {σ : Type} {py : Interpreter} {where_ method url requestId : Str} {maxBodySize : Int}
  {body : Bytes} {plan : Plan σ} {start : σ}

/-- A plan took the result of an object, which is parsed to a value. -/
def TookResult (py : Interpreter) (plan : Plan σ) (start : σ) (object : Value) (final : σ)
    (json : Json) : Prop :=
  ∃ slot ∈ object.members, Named py slot.1 (str "result") ∧ plan.Takes py slot.2 start final ∧
    keptValue py slot.2.text = .ok json

/-- What is said of a reply read under a plan is what `call` says of the body: one refusal, or the
state the plan took the result to and the result. -/
theorem ends_of_received {object : Value} {final : Kept σ} (accepts : Utf8.Accepts .start body)
    (spells : Spells body object) (shallow : object.depth ≤ py.nesting)
    (collects : Collects py maxBodySize (fun value final => plan.Takes py value start final)
      ⟨[], none⟩ object.members final) :
    Ends (TookResult py plan start object) (concluded py (method ++ str " at " ++ url) requestId final)
      (result py (loads py) method url requestId 200 body) := by
  have numbers : ∀ slot ∈ object.members, slot.2.Numbers (Streams py) :=
    collects.forall_slots (fun _ skipped => skipped.1) fun _ _ takes => Plan.Takes.numbers takes
  obtain ⟨pairs, loaded, parsed⟩ := loads_of_spells spells accepts
    ((object.numbers_members spells.isObject).mpr fun slot member =>
      (numbers slot member).mono fun _ streams => streams.1) shallow
  have new : Kept.Alike (TookResult py plan start object) ⟨[], none⟩ ⟨[], none⟩ := ⟨rfl, .none⟩
  obtain ⟨final', collects', alike⟩ : ∃ final', Collects py maxBodySize
      (fun value json => keptValue py value.text = .ok json) ⟨[], none⟩ object.members final' ∧
        final.Alike (TookResult py plan start object) final' := by
    refine collects.alike new fun slot member named answer takes => ?_
    obtain ⟨pair, parsed⟩ := exists_parsed parsed slot member
    exact ⟨pair.2, parsed.value, slot, member, named, takes, parsed.value⟩
  have agrees : Agrees (Dict.ofPairs pairs) final' :=
    Agrees.fold (fun _ _ kept => kept) collects' parsed agrees_new
  rw [result, replyObject, parsedJsonBody, loaded]
  show Ends _ _ (discriminate py _ requestId 200 (Dict.ofPairs pairs))
  rw [← concluded_of_agrees requestId agrees]
  exact concluded_alike alike

/-- The objects of a body nest no deeper than the parser recurses. -/
def Shallow (py : Interpreter) (body : Bytes) : Prop :=
  ∀ object, Spells body object → object.depth ≤ py.nesting

/-- Every result of a body is a plain value. -/
def PlainResult (py : Interpreter) (body : Bytes) : Prop :=
  ∀ object, Spells body object → ∀ slot ∈ object.members, Named py slot.1 (str "result") →
    Plain py slot.2

/-- Every limit of a plan has room for every result of a body. -/
def PlanFits (py : Interpreter) (plan : Plan σ) (body : Bytes) : Prop :=
  ∀ object, Spells body object → ∀ slot ∈ object.members, Named py slot.1 (str "result") →
    plan.Limits fun limit => (slot.2.text.length : Int) ≤ limit

theorem apart_unique {slots : List (Head .object × Value)} (once : slots.Pairwise (Apart py))
    {first second : Head .object × Value} (here : first ∈ slots) (there : second ∈ slots)
    (named : Named py first.1 (str "result")) (named' : Named py second.1 (str "result")) :
    first = second := by
  have differ (slot slot' : Head .object × Value) (apart : Apart py slot slot')
      (named : Named py slot.1 (str "result")) (named' : Named py slot'.1 (str "result")) : False :=
    apart _ List.mem_cons_self named named'
  have unique := List.Pairwise.forall_of_forall_of_flip (l := slots)
    (R := fun slot slot' => Named py slot.1 (str "result") → Named py slot'.1 (str "result") →
      slot = slot') (fun _ _ _ _ => rfl)
    (once.imp fun apart named named' => (differ _ _ apart named named').elim)
    (once.imp fun apart named named' => (differ _ _ apart named' named).elim)
  exact unique here there named named'

theorem member_length {body : Bytes} {object : Value} (spells : Spells body object) :
    ∀ slot ∈ object.members, slot.2.text.length ≤ body.length := by
  obtain ⟨⟨lead, trail, rfl⟩, isObject⟩ := spells
  intro slot member
  have holds : HasSlots object object.members := by
    match object, isObject with
    | .empty .object pad, _ => exact .empty .object pad
    | .full .object head value tail, _ => exact .full head value tail
  refine (holds.length_le slot member).trans ?_
  simp only [List.length_append]
  omega

/-- A reply that `call` answers is one a plan reads, within the bounds of the reader and where the
plan folds the answer. -/
theorem exists_planned {limit : Nat} {json : Json} {last : σ} (deep : maxStreamDepth + 1 ≤ py.nesting)
    (wellFormed : Utf8.Accepts .start body) (utf8 : detectEncoding body = .utf8)
    (bounded : ∀ object, Spells body object → Bounded py limit object.members)
    (plain : PlainResult py body) (fits : PlanFits py plan body)
    (answered : result py (loads py) method url requestId 200 body = .ok json)
    (folded : plan.fold json start = some last) :
    ∃ object final, Spells body object ∧ Collects py limit
      (fun value final => plan.Takes py value start final) ⟨[], none⟩ object.members final ∧
      ∀ slot ∈ object.members, Named py slot.1 (str "result") → ∀ final,
        plan.Takes py slot.2 start final → final = last := by
  obtain ⟨reply, loaded⟩ := exists_loads_of_answered (show AnswersRequest _ by rw [answered]; trivial)
  obtain ⟨object, pairs, spells, numbers, _, parsed⟩ := exists_spells wellFormed utf8 loaded
  have within := bounded object spells
  have builds := (object.numbers_members spells.isObject).mp numbers
  have skipped (slot) (member : slot ∈ object.members) : Skipped py slot.2 :=
    ⟨(builds slot member).and (within.numbers slot member), within.shallow slot member⟩
  have room : ResultFits py body.length body :=
    fun object spells slot member _ => member_length spells slot member
  -- the result that `call` answers is the one member of the name
  obtain ⟨whole, accepts, object', spells', collects⟩ :=
    exists_received wellFormed utf8 loaded bounded room
  obtain rfl := spells_unique spells spells'
  have concludes := @concluded_of_received py limit body.length method url requestId body whole deep
    ⟨accepts, object, spells', collects⟩
  rw [answered] at concludes
  have answer : whole.answer = some json := by
    obtain ⟨_, _, concludes⟩ := bind_eq_ok concludes
    cases answer : whole.answer with
    | none =>
      rw [answer] at concludes
      cases concludes
    | some found =>
      rw [answer] at concludes
      cases concludes
      rfl
  rcases collects.exists_result with other | ⟨slot, member, found, named, same, _, _, kept⟩
  · cases answer.symm.trans other
  obtain rfl := Option.some.inj (answer.symm.trans same)
  have only (other) (there : other ∈ object.members) (named' : Named py other.1 (str "result")) :
      other = slot := apart_unique within.once there member named' named
  have taken : plan.Takes py slot.2 start last :=
    plan.takes_of_fold (plain object spells slot member named) kept (skipped slot member)
      (fits object spells slot member named) folded
  obtain ⟨final, collects'⟩ := @exists_collects σ py limit
    (fun value final => plan.Takes py value start final) object.members ⟨[], none⟩ pairs parsed builds
    within (fun other there named' => ⟨last, only other there named' ▸ taken⟩)
    (fun _ _ _ _ _ => rfl) fun _ _ => rfl
  refine ⟨object, final, spells, collects', fun other there named' final takes => ?_⟩
  obtain rfl := only other there named'
  have again := plan.fold_of_takes (plain object spells other there named') kept takes
  exact Option.some.inj (again.symm.trans folded)

/-- A walk written as a program, run over a reply as it arrives, comes to what the same program comes
to over the value `call` answers of the whole body, or is refused as `call` refuses it, or is refused
by a `FetchError`; and what `call` answers and the program folds, the walk comes to, within the
bounds of the reader. -/
theorem streamedPlan_agrees (py : Interpreter) (deep : maxStreamDepth + 1 ≤ py.nesting)
    (method url requestId : Str) (maxBodySize : Nat) {source : List Arrival} (complete : Complete source)
    (plan : Plan σ) (start : σ) (plain : PlainResult py (contents source)) :
    let where_ := method ++ str " at " ++ url
    let body := contents source
    let called := result py (loads py) method url requestId 200 body
    let streamed := streamedResult py where_ (plan.walk py where_ start) maxBodySize requestId 200 source
    (Shallow py body → plan.Limits (0 ≤ ·) → IsFetchError streamed ∨
      Ends (fun answer json => ∃ final, answer = .inr final ∧ plan.fold json start = some final)
        streamed called) ∧
    ∀ json final, Utf8.Accepts .start body → detectEncoding body = .utf8 →
      (∀ object, Spells body object → Bounded py maxBodySize object.members) → PlanFits py plan body →
      called = .ok json → plan.fold json start = some final → streamed = .ok (.inr final) := by
  intro where_ body called streamed
  have digests := plan.digests py where_ start
  constructor
  · intro shallow limits
    by_cases read : ∃ final,
      Received py maxBodySize (fun value final => plan.Takes py value start final) body final
    · obtain ⟨final, accepts, object, spells, collects⟩ := read
      refine .inr ?_
      have said : streamed = _ := streamedResult_of_answers digests.walkAnswers complete
        ⟨accepts, object, spells, collects⟩
      rw [said]
      refine (@ends_of_received σ py method url requestId maxBodySize body plan start object final
        accepts spells (shallow object spells) collects).map fun last json took => ?_
      obtain ⟨slot, member, named, takes, kept⟩ := took
      exact ⟨last, rfl, plan.fold_of_takes (plain object spells slot member named) kept takes⟩
    · refine .inl (streamedResult_of_unread digests.walkReads ?_ (Int.natCast_nonneg _)
        ((Nat.le_succ _).trans deep) complete (not_exists.mp read))
      exact plan.proper ((Nat.le_succ _).trans deep) limits start
  · intro json last wellFormed utf8 bounded fits answered folded
    obtain ⟨object, final, spells, collects, only⟩ := exists_planned deep wellFormed utf8 bounded plain
      fits answered folded
    have said : streamed = _ := streamedResult_of_answers digests.walkAnswers complete
      ⟨wellFormed, object, spells, collects⟩
    have shallow : object.depth ≤ py.nesting :=
      ((object.depth_members spells.isObject).mpr (bounded object spells).shallow).trans deep
    have ends := @ends_of_received σ py method url requestId maxBodySize body plan start object final
      wellFormed spells shallow collects
    rw [show result py (loads py) method url requestId 200 body = .ok json from answered] at ends
    rw [said]
    generalize concluded py where_ requestId final = outcome at ends
    cases ends with | answer took =>
    obtain ⟨slot, member, named, takes, _⟩ := took
    rw [only slot member named _ takes]
    rfl

end Planned

/-! ### The ids of a block's transactions -/

/-- The walk that keeps each item of the member `tx`, and skips every other member. -/
def txIds : Plan (List Json) :=
  .each .object fun _ found =>
    if found = some (str "tx") then .each .array fun _ _ => .value 100 fun json ids => ids ++ [json]
    else .skip

theorem isPlain_t : isPlain 0x74 = true := rfl

/-- The members `"tx":["b"]` and `"n":1` of a block. -/
def txSlot : Head .object × Value :=
  (.member .none [.plain 0x74 isPlain_t, .plain 0x78 rfl] .none .none,
    .full .array (.item .none) (.string [.plain 0x62 rfl]) (.close .none))

def heightSlot : Head .object × Value :=
  (.member .none [.plain 0x6E rfl] .none .none,
    .number ⟨false, ⟨⟨[0x31], by decide, by decide⟩, .inr (by decide)⟩, none, none⟩)

/-- A reply whose result is a block of the two. -/
def blockReply : Value :=
  .full .object idMember.1 idMember.2
    (.more .none resultMember.1 (.full .object txSlot.1 txSlot.2
      (.more .none heightSlot.1 heightSlot.2 (.close .none))) (.close .none))

/-- The reply, its first octets in a read of their own. -/
def blockSource : List Arrival :=
  [.octets 0x7B (blockReply.text.drop 1 |>.take 20), .octets 0x74 (blockReply.text.drop 22)]

theorem blockSource_spells : Spells (contents blockSource) blockReply :=
  ⟨⟨.none, .none, by decide +kernel⟩, trivial⟩

theorem blockSource_complete : Complete blockSource := by
  intro arrival member e
  simp only [blockSource, List.mem_cons, List.not_mem_nil, or_false] at member
  rcases member with rfl | rfl <;> rintro ⟨⟩

theorem blockReply_plain : ∀ slot ∈ blockReply.members, Plain cpython slot.2 := by
  have tx : Called cpython txSlot.1 (some (str "tx")) := ⟨by decide, by decide +kernel⟩
  have height : Called cpython heightSlot.1 (some (str "n")) := ⟨by decide, by decide +kernel⟩
  have item : Plain cpython txSlot.2 := by
    refine .container (.full (.item .none) _ _) ?_ (List.pairwise_singleton _ _) ?_
    · exact List.forall_mem_cons.mpr ⟨trivial, List.forall_mem_nil _⟩
    · exact List.forall_mem_cons.mpr ⟨.flat rfl, List.forall_mem_nil _⟩
  intro slot member
  rcases List.mem_pair.mp member with rfl | rfl
  · exact .flat rfl
  · refine .container (.full txSlot.1 _ _) ?_ (List.pairwise_pair.mpr ?_) ?_
    · intro slot member
      rcases List.mem_pair.mp member with rfl | rfl
      · exact tx.1
      · exact height.1
    · intro name first second
      have same := (called_unique tx first).trans (called_unique height second).symm
      exact absurd same (by decide)
    · intro slot member
      rcases List.mem_pair.mp member with rfl | rfl
      · exact item
      · exact .flat rfl

theorem blockReply_bounded : Bounded cpython (64 : Nat) blockReply.members where
  numbers := by
    intro slot member
    rcases List.mem_pair.mp member with rfl | rfl
    · trivial
    · exact ⟨⟨trivial, trivial⟩, by show _ ≤ _; decide, trivial⟩
  shallow := by decide
  once := by
    have id_ : Named cpython idMember.1 (str "id") := by
      unfold Named
      decide +kernel
    have result : Named cpython resultMember.1 (str "result") := by
      unfold Named
      decide +kernel
    refine List.pairwise_pair.mpr fun name _ first second => ?_
    exact absurd ((first.unique id_).symm.trans (second.unique result)) (by decide)
  envelope slot member _ _ _ := by
    rcases List.mem_pair.mp member with rfl | rfl <;> decide

theorem streamedPlan_agrees_block :
    streamedResult cpython (str "m" ++ str " at " ++ str "u")
      (txIds.walk cpython (str "m" ++ str " at " ++ str "u") []) (64 : Nat) (str "a") 200 blockSource =
        .ok (.inr [.string (str "b")]) := by
  have members (object : Value) (spells : Spells (contents blockSource) object) :
      object = blockReply := spells_unique spells blockSource_spells
  have plain : PlainResult cpython (contents blockSource) := by
    intro object spells slot member _
    exact blockReply_plain slot (members object spells ▸ member)
  refine (streamedPlan_agrees cpython (by decide) (str "m") (str "u") (str "a") 64 blockSource_complete
    txIds [] plain).2 (.object [(str "tx", .array [.string (str "b")]), (str "n", .int 1)]) _
    ?_ ?_ ?_ ?_ ?_ ?_
  · exact Utf8.accepts_start_iff.mpr ⟨contents blockSource, by decide +kernel⟩
  · decide +kernel
  · intro object spells
    rw [members object spells]
    exact blockReply_bounded
  · intro object spells slot member _ index found
    have fits : ∀ slot ∈ blockReply.members, (slot.2.text.length : Int) ≤ 100 := by decide +kernel
    have room := fits slot (members object spells ▸ member)
    show Plan.Limits _ (if found = some (str "tx") then _ else _)
    split_ifs
    · exact fun _ _ => room
    · trivial
  · decide +kernel
  · decide +kernel

end BitcoinCoreRpc
