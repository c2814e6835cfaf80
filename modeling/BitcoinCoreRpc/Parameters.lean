/-
This file settles what the walk over a caller's parameters accepts and how it refuses.

Objects are nodes of a graph that may share and cycle, and what a root unfolds to is a
tree only where nothing it reaches is reached from inside itself. The walk keeps the
containers it is inside of and a path of what it went through. The main result says over
every graph and every root that it returns exactly on the trees of at most a hundred and
one levels that json can carry, that what it calls a cycle is one, and that the path of a
refusal leads to the value it is about.
-/

import BitcoinCoreRpc.Request

namespace BitcoinCoreRpc

/-! ### Unfoldings -/

/-- What a container holds. -/
def Obj.children : Obj → List Ref
  | .dict members => members.map Prod.snd
  | .list items | .tuple items => items
  | _ => []

/-- The containers json has. -/
def Obj.isContainer : Obj → Bool
  | .dict _ | .list _ | .tuple _ => true
  | _ => false

/-- The leaves json has: a number is finite. -/
def Obj.isLeaf : Obj → Bool
  | .none | .bool _ | .int _ | .str _ => true
  | .float bits => floatIsFinite bits
  | .decimal number => number.isFinite
  | _ => false

/-- Every name of a `dict` is a string. -/
def Obj.Named (heap : Heap) (value : Obj) : Prop :=
  ∀ members, value = .dict members → ∀ member ∈ members, ∃ text, heap.object member.1 = .str text

/-- A value unfolds to a finite tree of at most so many levels that json can carry. -/
inductive Carries (heap : Heap) : (levels : Nat) → Obj → Prop
  | leaf {value : Obj} (levels : Nat) (scalar : value.isLeaf = true) : Carries heap (levels + 1) value
  | container {value : Obj} {levels : Nat} (kind : value.isContainer = true)
    (named : value.Named heap) (each : ∀ child ∈ value.children, Carries heap levels (heap.object child)) :
    Carries heap (levels + 1) value

/-- One object holds another. -/
def Holds (heap : Heap) (parent child : Ref) : Prop := child ∈ (heap.object parent).children

/-- What a value has inside it, at any depth. -/
def Inside (heap : Heap) (value : Obj) (ref : Ref) : Prop :=
  ∃ child ∈ value.children, Relation.ReflTransGen (Holds heap) child ref

/-- A value has something inside it that is inside itself. -/
def Cyclic (heap : Heap) (value : Obj) : Prop :=
  ∃ ref, Inside heap value ref ∧ Inside heap (heap.object ref) ref

section Unfoldings

variable {heap : Heap} {value : Obj} {levels : Nat}

theorem Obj.children_of_leaf (scalar : value.isLeaf = true) : value.children = [] := by
  cases value <;> first | rfl | cases scalar

/-- What is held unfolds to a tree of fewer levels. -/
theorem Carries.child (carries : Carries heap levels value) {child : Ref} (held : child ∈ value.children) :
    ∃ fewer < levels, Carries heap fewer (heap.object child) := by
  cases carries with
  | leaf levels scalar =>
    rw [Obj.children_of_leaf scalar] at held
    cases held
  | @container _ levels kind named each => exact ⟨levels, Nat.lt_succ_self _, each child held⟩

/-- So does what is inside at any depth. -/
theorem Carries.inside (carries : Carries heap levels value) {ref : Ref} (inside : Inside heap value ref) :
    ∃ fewer < levels, Carries heap fewer (heap.object ref) := by
  obtain ⟨child, held, reaches⟩ := inside
  induction reaches with
  | refl => exact carries.child held
  | tail _ holds inductionHypothesis =>
    obtain ⟨fewer, less, between⟩ := inductionHypothesis
    obtain ⟨fewest, lesser, last⟩ := between.child holds
    exact ⟨fewest, lesser.trans less, last⟩

/-- A tree has no cycle in it. -/
theorem Carries.acyclic (carries : Carries heap levels value) : ¬ Cyclic heap value := by
  rintro ⟨ref, inside, again⟩
  obtain ⟨fewer, some_, below⟩ := carries.inside inside
  clear carries inside some_
  induction fewer using Nat.strong_induction_on with
  | _ fewer inductionHypothesis =>
    obtain ⟨fewest, less, deeper⟩ := below.inside again
    exact inductionHypothesis fewest less deeper

theorem Inside.trans {outer inner : Ref} (outside : Inside heap value outer)
    (inside : Inside heap (heap.object outer) inner) : Inside heap value inner := by
  obtain ⟨child, held, reaches⟩ := outside
  obtain ⟨next, holds, onward⟩ := inside
  exact ⟨child, held, (reaches.tail holds).trans onward⟩

end Unfoldings

/-! ### One level of the walk -/

/-- Where a path leads: the names and positions it shows, from a value to what it reaches. -/
inductive Route (heap : Heap) : Obj → Str → Obj → Prop
  | here (value : Obj) : Route heap value [] value
  | member {members : List (Ref × Ref)} {name item : Ref} {text rest : Str} {target : Obj}
    (held : (name, item) ∈ members) (named : heap.object name = .str text)
    (onward : Route heap (heap.object item) rest target) :
    Route heap (.dict members) (str "[" ++ shownName text ++ str "]" ++ rest) target
  | item {value : Obj} {items : List Ref} {index : Nat} {item : Ref} {rest : Str} {target : Obj}
    (kind : value = .list items ∨ value = .tuple items) (held : items[index]? = some item)
    (onward : Route heap (heap.object item) rest target) :
    Route heap value (str "[" ++ natText index ++ str "]" ++ rest) target

/-- The refusal of a cycle. -/
def containsItself : Exc :=
  .btcRpcValueError (str "rpc params contains itself, so it has no json")

/-- What `_json_scalar` makes of a value: a leaf is one, a container is none, and of anything else it
refuses a number that is not finite by its value, and octets by their type, as the end of the walk
refuses the rest. -/
theorem jsonScalar_cases (value : Obj) (path : Str) :
    (value.isLeaf = true ∧ jsonScalar value path = .ok true) ∨
    (value.isLeaf = false ∧ value.isContainer = true ∧ jsonScalar value path = .ok false) ∨
    (value.isLeaf = false ∧ value.isContainer = false ∧
      ((∃ message, jsonScalar value path = .error (.btcRpcValueError message) ∧
          message.head? = some 0x6E) ∨
        jsonScalar value path = .error (.btcRpcTypeError (notJsonValue value.typeName (some path))) ∨
        jsonScalar value path = .ok false)) := by
  cases value with
  | none | bool | int | str => exact .inl ⟨rfl, rfl⟩
  | dict | list | tuple => exact .inr (.inl ⟨rfl, rfl, rfl⟩)
  | bytes | bytearray => exact .inr (.inr ⟨rfl, rfl, .inr (.inl rfl)⟩)
  | mapping | sequence | iterable | other => exact .inr (.inr ⟨rfl, rfl, .inr (.inr rfl)⟩)
  | float bits =>
    by_cases finite : floatIsFinite bits = true
    · exact .inl ⟨finite, if_neg (by rw [finite]; decide)⟩
    · have not_ := Bool.eq_false_iff.mpr finite
      exact .inr (.inr ⟨not_, rfl, .inl ⟨_, if_pos (by rw [not_]; rfl), rfl⟩⟩)
  | decimal number =>
    by_cases finite : number.isFinite = true
    · exact .inl ⟨finite, if_neg (by rw [finite]; decide)⟩
    · have not_ := Bool.eq_false_iff.mpr finite
      exact .inr (.inr ⟨not_, rfl, .inl ⟨_, if_pos (by rw [not_]; rfl), rfl⟩⟩)

/-- A step of the walk into what a container holds. -/
def Stepped (heap : Heap) (left : Nat) (enclosing : List Ref) (path : Str) (ident : Option Ref)
    (value : Obj) : Except Exc Unit :=
  match value with
  | .dict members => members.forM fun (name, item) =>
    match heap.object name with
    | .str text =>
      assertJsonParams heap left (ident.toList ++ enclosing)
        (path ++ str "[" ++ shownName text ++ str "]") (some item) (heap.object item)
    | key => .error (.btcRpcTypeError (str "non-string rpc parameter name of type " ++
        key.typeName ++ str " in " ++ path))
  | .list items | .tuple items => items.zipIdx.forM fun (item, i) =>
    assertJsonParams heap left (ident.toList ++ enclosing)
      (path ++ str "[" ++ natText i ++ str "]") (some item) (heap.object item)
  | _ => .ok ()

section Walk

variable {heap : Heap} {left : Nat} {enclosing : List Ref} {path : Str} {ident : Option Ref}
  {value : Obj}

/-- The walk of a leaf, of a container and of anything else. -/
theorem assertJsonParams_leaf (scalar : value.isLeaf = true) :
    assertJsonParams heap (left + 1) enclosing path ident value = .ok () := by
  obtain ⟨_, found⟩ | ⟨other, _⟩ | ⟨other, _⟩ := jsonScalar_cases value path
  · simp only [assertJsonParams, found]
    rfl
  · exact nomatch scalar.symm.trans other
  · exact nomatch scalar.symm.trans other

theorem assertJsonParams_container (kind : value.isContainer = true) :
    assertJsonParams heap (left + 1) enclosing path ident value =
      (assertNoCycle ident enclosing).bind fun _ => Stepped heap left enclosing path ident value := by
  cases value with
  | dict | list | tuple => rfl
  | _ => cases kind

theorem assertJsonParams_other (scalar : value.isLeaf = false) (kind : value.isContainer = false) :
    (∃ message, assertJsonParams heap (left + 1) enclosing path ident value =
        .error (.btcRpcValueError message) ∧ message.head? = some 0x6E) ∨
      assertJsonParams heap (left + 1) enclosing path ident value =
        .error (.btcRpcTypeError (notJsonValue value.typeName (some path))) := by
  obtain ⟨other, _⟩ | ⟨_, other, _⟩ | ⟨_, _, found⟩ := jsonScalar_cases value path
  · exact nomatch scalar.symm.trans other
  · exact nomatch kind.symm.trans other
  obtain ⟨message, raised, first⟩ | raised | passed := found
  · left
    simp only [assertJsonParams, raised]
    exact ⟨message, rfl, first⟩
  · right
    simp only [assertJsonParams, raised]
    rfl
  · right
    simp only [assertJsonParams, passed]
    cases value <;> first | rfl | cases kind

/-- A step into a container goes into each thing it holds, under a longer path. -/
theorem stepped_eq_ok (kind : value.isContainer = true)
    (passed : Stepped heap left enclosing path ident value = .ok ()) :
    value.Named heap ∧ ∀ child ∈ value.children, ∃ longer,
      assertJsonParams heap left (ident.toList ++ enclosing) longer (some child) (heap.object child) =
        .ok () := by
  cases value with
  | dict members =>
    have each := forM_eq_ok passed
    refine ⟨?_, ?_⟩
    · rintro _ ⟨⟩ member held
      have step := each member held
      dsimp only at step
      split at step
      · exact ⟨_, ‹_›⟩
      · cases step
    · intro child held
      obtain ⟨member, listed, rfl⟩ := List.mem_map.mp held
      have step := each member listed
      dsimp only at step
      split at step
      · exact ⟨_, step⟩
      · cases step
  | list items | tuple items =>
    refine ⟨nofun, fun child held => ?_⟩
    obtain ⟨index, here⟩ := List.mem_iff_getElem?.mp held
    have step := forM_eq_ok passed (child, index) (List.mem_zipIdx_iff_getElem?.mpr here)
    exact ⟨_, step⟩
  | _ => cases kind

/-- It goes through where each of them does, and each name is a string. -/
theorem stepped_isOk (named : value.Named heap)
    (each : ∀ child ∈ value.children, ∀ longer,
      assertJsonParams heap left (ident.toList ++ enclosing) longer (some child) (heap.object child) =
        .ok ()) :
    Stepped heap left enclosing path ident value = .ok () := by
  cases value with
  | dict members =>
    refine forM_isOk fun member held => ?_
    obtain ⟨text, name⟩ := named members rfl member held
    dsimp only
    rw [name]
    exact each member.2 (List.mem_map_of_mem held) _
  | list items | tuple items =>
    refine forM_isOk fun entry held => ?_
    exact each entry.1 (List.mem_of_getElem? (List.mem_zipIdx_iff_getElem?.mp held)) _
  | _ => rfl

/-- What it raises was raised under one of them, or is the refusal of a name. -/
theorem stepped_eq_error {e : Exc} (raised : Stepped heap left enclosing path ident value = .error e) :
    (∃ child step, child ∈ value.children ∧
      assertJsonParams heap left (ident.toList ++ enclosing) (path ++ step) (some child)
        (heap.object child) = .error e ∧
      ∀ rest target, Route heap (heap.object child) rest target →
        Route heap value (step ++ rest) target) ∨
    ∃ members name item, value = .dict members ∧ (name, item) ∈ members ∧
      (∀ text, heap.object name ≠ .str text) ∧
      e = .btcRpcTypeError (str "non-string rpc parameter name of type " ++
        (heap.object name).typeName ++ str " in " ++ path) := by
  cases value with
  | dict members =>
    obtain ⟨⟨name, item⟩, held, step⟩ := forM_eq_error raised
    dsimp only at step
    split at step
    · rename_i text named
      refine .inl ⟨item, str "[" ++ shownName text ++ str "]", List.mem_map.mpr ⟨_, held, rfl⟩, ?_,
        fun rest target onward => .member held named onward⟩
      simpa only [List.append_assoc] using step
    · rename_i other
      cases step
      exact .inr ⟨members, name, item, rfl, held, other, rfl⟩
  | list items | tuple items =>
    obtain ⟨⟨item, index⟩, held, step⟩ := forM_eq_error raised
    have here := List.mem_zipIdx_iff_getElem?.mp held
    refine .inl ⟨item, str "[" ++ natText index ++ str "]", List.mem_of_getElem? here, ?_,
      fun rest target onward => .item (by first | exact .inl rfl | exact .inr rfl) here onward⟩
    simpa only [List.append_assoc] using step
  | _ => cases raised

end Walk

/-! ### The walk -/

/-- The containers the walk is inside of each have the value inside them. -/
structure Chain (heap : Heap) (enclosing : List Ref) (ident : Option Ref) (value : Obj) : Prop where
  own : ∀ ref, ident = some ref → heap.object ref = value
  nested : ∀ outer ∈ enclosing, ∃ ref, ident = some ref ∧ Inside heap (heap.object outer) ref

/-- How the walk of a value refuses: a value by its type, under the path that leads to it; a name by
its type, under the path that leads to its `dict`; a cycle, where there is one; or something else by
its value or its depth. -/
inductive Refuses (heap : Heap) (path : Str) (value : Obj) : Exc → Prop
  | kind {rest : Str} {target : Obj} (route : Route heap value rest target)
    (leaf : target.isLeaf = false) (container : target.isContainer = false) :
    Refuses heap path value (.btcRpcTypeError (notJsonValue target.typeName (some (path ++ rest))))
  | name {rest : Str} {members : List (Ref × Ref)} {name item : Ref}
    (route : Route heap value rest (.dict members)) (held : (name, item) ∈ members)
    (other : ∀ text, heap.object name ≠ .str text) :
    Refuses heap path value (.btcRpcTypeError (str "non-string rpc parameter name of type " ++
      (heap.object name).typeName ++ str " in " ++ (path ++ rest)))
  | cycle (cyclic : Cyclic heap value) : Refuses heap path value containsItself
  | value (message : Str) (other : .btcRpcValueError message ≠ containsItself) :
    Refuses heap path value (.btcRpcValueError message)

section Walk

variable {heap : Heap} {left : Nat} {enclosing : List Ref} {path : Str} {ident : Option Ref}
  {value : Obj}

theorem Chain.step (chain : Chain heap enclosing ident value) {child : Ref}
    (held : child ∈ value.children) :
    Chain heap (ident.toList ++ enclosing) (some child) (heap.object child) where
  own _ same := by rw [Option.some.inj same]
  nested outer member := by
    have direct : Inside heap value child := ⟨child, held, .refl⟩
    refine ⟨child, rfl, ?_⟩
    rcases List.mem_append.mp member with here | further
    · rw [chain.own outer (Option.mem_toList.mp here)]
      exact direct
    · obtain ⟨ref, same, inside⟩ := chain.nested outer further
      exact inside.trans (chain.own ref same ▸ direct)

/-- A container the walk is inside of already is inside itself. -/
theorem Chain.noCycle_cases (chain : Chain heap enclosing ident value) :
    assertNoCycle ident enclosing = .ok () ∨
      (assertNoCycle ident enclosing = .error containsItself ∧ Cyclic heap value) := by
  cases ident with
  | none => exact .inl rfl
  | some ref =>
    unfold assertNoCycle
    dsimp only
    split_ifs with member
    · obtain ⟨_, ⟨⟩, inside⟩ := chain.nested ref member
      exact .inr ⟨rfl, ref, chain.own ref rfl ▸ inside, inside⟩
    · exact .inl rfl

/-- What the walk returns from unfolds to a tree of the levels it was allowed. -/
theorem assertJsonParams_sound (passed : assertJsonParams heap left enclosing path ident value = .ok ()) :
    Carries heap left value := by
  induction left generalizing enclosing path ident value with
  | zero => cases passed
  | succ left inductionHypothesis =>
    cases scalar : value.isLeaf with
    | true => exact .leaf left scalar
    | false =>
      cases kind : value.isContainer with
      | false =>
        rcases @assertJsonParams_other heap left enclosing path ident value scalar kind with
          ⟨_, raised, _⟩ | raised <;> rw [raised] at passed <;> cases passed
      | true =>
        rw [assertJsonParams_container kind] at passed
        obtain ⟨_, _, stepped⟩ := bind_eq_ok passed
        obtain ⟨named, each⟩ := stepped_eq_ok kind stepped
        exact .container kind named fun child held =>
          (each child held).elim fun _ below => inductionHypothesis below

/-- The walk returns from every such tree. -/
theorem assertJsonParams_complete (carries : Carries heap left value)
    (chain : Chain heap enclosing ident value) :
    assertJsonParams heap left enclosing path ident value = .ok () := by
  induction left generalizing enclosing path ident value with
  | zero => cases carries
  | succ left inductionHypothesis =>
    have acyclic := carries.acyclic
    cases carries with
    | leaf _ scalar => exact assertJsonParams_leaf scalar
    | container kind named each =>
      rw [assertJsonParams_container kind]
      obtain passed | ⟨_, cyclic⟩ := chain.noCycle_cases
      · rw [passed]
        exact stepped_isOk named fun child held longer =>
          inductionHypothesis (each child held) (chain.step held)
      · exact absurd cyclic acyclic

/-- A refusal of what a container holds is one of the container's. -/
theorem Refuses.lift {e : Exc} {child : Ref} {step : Str}
    (refuses : Refuses heap (path ++ step) (heap.object child) e) (held : child ∈ value.children)
    (routes : ∀ rest target, Route heap (heap.object child) rest target →
      Route heap value (step ++ rest) target) :
    Refuses heap path value e := by
  cases refuses with
  | kind route leaf container =>
    rw [List.append_assoc]
    exact .kind (routes _ _ route) leaf container
  | name route listed other =>
    rw [List.append_assoc path]
    exact .name (routes _ _ route) listed other
  | cycle cyclic =>
    obtain ⟨ref, inside, again⟩ := cyclic
    exact .cycle ⟨ref, Inside.trans ⟨child, held, .refl⟩ inside, again⟩
  | value message other => exact .value message other

/-- What the walk raises is one of its refusals. -/
theorem assertJsonParams_refuses {e : Exc} (chain : Chain heap enclosing ident value)
    (raised : assertJsonParams heap left enclosing path ident value = .error e) :
    Refuses heap path value e := by
  induction left generalizing enclosing path ident value with
  | zero =>
    cases raised
    exact .value _ (by decide +kernel)
  | succ left inductionHypothesis =>
    cases scalar : value.isLeaf with
    | true => exact nomatch (assertJsonParams_leaf scalar).symm.trans raised
    | false =>
      cases kind : value.isContainer with
      | false =>
        rcases @assertJsonParams_other heap left enclosing path ident value scalar kind with
          ⟨message, refused, first⟩ | refused
        · cases refused.symm.trans raised
          refine .value message fun same => ?_
          rw [Exc.btcRpcValueError.inj same] at first
          cases first
        · cases refused.symm.trans raised
          have route := @Refuses.kind heap path value [] value (.here value) scalar kind
          rwa [List.append_nil] at route
      | true =>
        rw [assertJsonParams_container kind] at raised
        obtain passed | ⟨refused, cyclic⟩ := chain.noCycle_cases
        · rw [passed] at raised
          obtain ⟨child, step, held, below, routes⟩ | ⟨members, name, item, rfl, held, other, rfl⟩ :=
            stepped_eq_error raised
          · exact (inductionHypothesis (chain.step held) below).lift held routes
          · have route := @Refuses.name heap path _ [] members name item (.here _) held other
            rwa [List.append_nil] at route
        · rw [refused] at raised
          cases raised
          exact .cycle cyclic

end Walk

/-- Over every graph and every root the walk returns exactly where what the root unfolds to is a tree
of at most a hundred and one levels that json can carry, so never where there is a cycle, and anything
else it refuses with one of its two errors: as containing itself only where something does, and for its
type by a path that leads to a value of the type named, or to the `dict` of a name of that type. -/
theorem assertJsonParams_exact (heap : Heap) (root : Ref) :
    (assertJsonParams heap (maxParamsDepth + 1) [] (str "params") (some root) (heap.object root) =
        .ok () ↔
      Carries heap (maxParamsDepth + 1) (heap.object root)) ∧
    (Cyclic heap (heap.object root) → ∃ e,
      assertJsonParams heap (maxParamsDepth + 1) [] (str "params") (some root) (heap.object root) =
        .error e) ∧
    ∀ e, assertJsonParams heap (maxParamsDepth + 1) [] (str "params") (some root) (heap.object root) =
        .error e →
      ((∃ message, e = .btcRpcTypeError message) ∨ ∃ message, e = .btcRpcValueError message) ∧
      Refuses heap (str "params") (heap.object root) e := by
  have chain : Chain heap [] (some root) (heap.object root) :=
    ⟨fun ref same => by rw [Option.some.inj same], nofun⟩
  refine ⟨⟨assertJsonParams_sound, fun carries => assertJsonParams_complete carries chain⟩, ?_, ?_⟩
  · intro cyclic
    cases ran : assertJsonParams heap (maxParamsDepth + 1) [] (str "params") (some root)
        (heap.object root) with
    | error e => exact ⟨e, rfl⟩
    | ok => exact absurd cyclic (assertJsonParams_sound ran).acyclic
  · intro e raised
    have refuses := assertJsonParams_refuses chain raised
    refine ⟨?_, refuses⟩
    cases refuses with
    | kind | name => exact .inl ⟨_, rfl⟩
    | cycle | value => exact .inr ⟨_, rfl⟩

end BitcoinCoreRpc
