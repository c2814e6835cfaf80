/-
This file is the part of Python the package is written in: its text, the json values
it decodes, its exceptions, and the settings of the interpreter it runs under.

A `str` is a list of code points, lone surrogates included, and a `bytes` a list of
octets, both by number. What the package reads of the interpreter and cannot decide
itself is a field of `Interpreter`: the digit limit, how deep the json parser may
recurse, which decimals the caller's decimal context builds, and the renderings whose
text only ever enters a message.
-/

import BitcoinCoreRpc.Meaning

namespace BitcoinCoreRpc

/-! ### Text -/

/-- A Python `bytes`, octet by octet. -/
abbrev Bytes := List Nat

/-- A Python `str`, code point by code point. -/
abbrev Str := List Nat

/-- A literal of the source. -/
def str (literal : String) : Str :=
  literal.toList.map Char.toNat

/-- The decimal text of a natural number, as `str` and an f-string write one. -/
def natText (number : Nat) : Str :=
  JsonText.decimalText number

/-- The decimal text of an integer. -/
def intText (number : Int) : Str :=
  if number < 0 then 0x2D :: natText number.natAbs else natText number.natAbs

/-! ### Values -/

/-- A Python `Decimal`. -/
inductive Decimal
  | finite (negative : Bool) (coefficient : Nat) (exponent : Int)
  | infinity (negative : Bool)
  | nan
deriving DecidableEq

/-- How many decimal digits a natural number takes. -/
def digitCount (number : Nat) : Nat :=
  Nat.log 10 number + 1

def Decimal.isFinite : Decimal → Bool
  | .finite _ _ _ => true
  | _ => false

/-- `Decimal.adjusted`: the exponent of the leading digit. -/
def Decimal.adjusted : Decimal → Int
  | .finite _ coefficient exponent => exponent + digitCount coefficient - 1
  | _ => 0

/-- What `json.loads` answers under this package's hooks. An object is a `dict` and holds each
name once, in the order of first insertion. -/
inductive Json
  | null
  | bool (value : Bool)
  | int (value : Int)
  | decimal (value : Decimal)
  | string (value : Str)
  | array (items : List Json)
  | object (members : List (Str × Json))

mutual
/-- Equality of json values is decidable. -/
def Json.decEq : (first second : Json) → Decidable (first = second)
  | .null, .null => isTrue rfl
  | .bool a, .bool b => decidable_of_iff (a = b) (by simp)
  | .int a, .int b => decidable_of_iff (a = b) (by simp)
  | .decimal a, .decimal b => decidable_of_iff (a = b) (by simp)
  | .string a, .string b => decidable_of_iff (a = b) (by simp)
  | .array a, .array b => @decidable_of_iff _ (a = b) (by simp) (Json.decEqItems a b)
  | .object a, .object b => @decidable_of_iff _ (a = b) (by simp) (Json.decEqMembers a b)
  | .null, .bool _ | .null, .int _ | .null, .decimal _ | .null, .string _ | .null, .array _
  | .null, .object _ | .bool _, .null | .bool _, .int _ | .bool _, .decimal _ | .bool _, .string _
  | .bool _, .array _ | .bool _, .object _ | .int _, .null | .int _, .bool _ | .int _, .decimal _
  | .int _, .string _ | .int _, .array _ | .int _, .object _ | .decimal _, .null
  | .decimal _, .bool _ | .decimal _, .int _ | .decimal _, .string _ | .decimal _, .array _
  | .decimal _, .object _ | .string _, .null | .string _, .bool _ | .string _, .int _
  | .string _, .decimal _ | .string _, .array _ | .string _, .object _ | .array _, .null
  | .array _, .bool _ | .array _, .int _ | .array _, .decimal _ | .array _, .string _
  | .array _, .object _ | .object _, .null | .object _, .bool _ | .object _, .int _
  | .object _, .decimal _ | .object _, .string _ | .object _, .array _ => isFalse (by simp)

def Json.decEqItems : (first second : List Json) → Decidable (first = second)
  | [], [] => isTrue rfl
  | [], _ :: _ | _ :: _, [] => isFalse (by simp)
  | a :: as, b :: bs =>
    @decidable_of_iff _ (a = b ∧ as = bs) (by simp)
      (@instDecidableAnd _ _ (Json.decEq a b) (Json.decEqItems as bs))

def Json.decEqMembers : (first second : List (Str × Json)) → Decidable (first = second)
  | [], [] => isTrue rfl
  | [], _ :: _ | _ :: _, [] => isFalse (by simp)
  | (n, a) :: as, (m, b) :: bs =>
    @decidable_of_iff _ (n = m ∧ a = b ∧ as = bs) (by simp [and_assoc])
      (@instDecidableAnd _ _ _ (@instDecidableAnd _ _ (Json.decEq a b) (Json.decEqMembers as bs)))
end

instance : DecidableEq Json := Json.decEq

/-- A `dict` of json values. -/
abbrev Dict := List (Str × Json)

/-- `type(value).__name__`. -/
def Json.typeName : Json → Str
  | .null => str "NoneType"
  | .bool _ => str "bool"
  | .int _ => str "int"
  | .decimal _ => str "Decimal"
  | .string _ => str "str"
  | .array _ => str "list"
  | .object _ => str "dict"

/-- `value is None`. -/
def Json.isNone : Json → Bool
  | .null => true
  | _ => false

/-- `value == text`, for a json value and a `str`. -/
def Json.isStr (value : Json) (text : Str) : Bool :=
  match value with
  | .string other => other == text
  | _ => false

/-- `dict.get(name)`, with `None` for a name that is absent. -/
def Dict.get (members : Dict) (name : Str) : Json :=
  (members.lookup name).getD .null

/-- `name in dict`. -/
def Dict.has (members : Dict) (name : Str) : Bool :=
  (members.lookup name).isSome

/-- `dict[name] = value`: in place where the name is there, at the end where it is not. -/
def Dict.set (members : Dict) (name : Str) (value : Json) : Dict :=
  if members.has name then
    members.map fun member => if member.1 == name then (name, value) else member
  else members ++ [(name, value)]

/-- `dict(pairs)`: the last of two values under one name stays. -/
def Dict.ofPairs (pairs : List (Str × Json)) : Dict :=
  pairs.foldl (fun members pair => Dict.set members pair.1 pair.2) []

theorem Dict.lookup_map_set (members : Dict) (name other : Str) (value : Json) :
    (members.map fun member => if member.1 == name then (name, value) else member).lookup other =
      if other = name then (members.lookup other).map fun _ => value else members.lookup other := by
  induction members with
  | nil => simp
  | cons member rest inductionHypothesis =>
    obtain ⟨key, held⟩ := member
    by_cases same : key = name
    · subst same
      by_cases asked : other = key
      · subst asked
        simp
      · have differs : (other == key) = false := by simpa using asked
        simp only [List.map_cons, beq_self_eq_true, if_true, List.lookup_cons, differs,
          inductionHypothesis, if_neg asked]
    · have differs : (key == name) = false := by simpa using same
      simp only [List.map_cons, differs, Bool.false_eq_true, if_false, List.lookup_cons,
        inductionHypothesis]
      by_cases asked : other = key
      · subst asked
        simp [same]
      · have differs : (other == key) = false := by simpa using asked
        simp only [differs]

/-- A name reads back what was set under it last, and any other name what it held before. -/
theorem Dict.lookup_set (members : Dict) (name other : Str) (value : Json) :
    (members.set name value).lookup other =
      if other = name then some value else members.lookup other := by
  unfold Dict.set Dict.has
  split_ifs with present same same
  · rw [Dict.lookup_map_set, if_pos same, same]
    obtain ⟨held, found⟩ := Option.isSome_iff_exists.mp present
    rw [found, Option.map_some]
  · rw [Dict.lookup_map_set, if_neg same]
  · subst same
    rw [List.lookup_append, Option.not_isSome_iff_eq_none.mp present]
    simp
  · rw [List.lookup_append]
    have differs : (other == name) = false := by simpa using same
    simp [List.lookup_cons, differs]

theorem Dict.has_set (members : Dict) (name other : Str) (value : Json) :
    (members.set name value).has other = if other = name then true else members.has other := by
  unfold Dict.has
  rw [Dict.lookup_set]
  split_ifs <;> rfl

theorem Dict.ofPairs_append_singleton (pairs : List (Str × Json)) (name : Str) (value : Json) :
    Dict.ofPairs (pairs ++ [(name, value)]) = (Dict.ofPairs pairs).set name value := by
  simp [Dict.ofPairs, List.foldl_append]

/-- Pairs with no name twice are the items of the `dict` they make. -/
theorem Dict.ofPairs_of_nodup {pairs : List (Str × Json)} (distinct : (pairs.map Prod.fst).Nodup) :
    Dict.ofPairs pairs = pairs := by
  induction pairs using List.reverseRecOn with
  | nil => rfl
  | append_singleton pairs pair inductionHypothesis =>
    obtain ⟨name, value⟩ := pair
    rw [List.map_append, List.nodup_append] at distinct
    have fresh : Dict.has pairs name = false := by
      cases found : pairs.lookup name with
      | none => simp [Dict.has, found]
      | some held =>
        obtain ⟨before, after, rfl, _⟩ := List.lookup_eq_some_iff.mp found
        exact absurd rfl (distinct.2.2 name (by simp) name (by simp))
    rw [Dict.ofPairs_append_singleton, inductionHypothesis distinct.1, Dict.set, fresh,
      if_neg Bool.false_ne_true]

/-! ### Raising -/

theorem map_eq_error {ε α β : Type} {x : Except ε α} {f : α → β} {e : ε}
    (raised : x.map f = .error e) : x = .error e := by
  cases x with
  | error e' => exact congrArg Except.error (Except.error.inj raised)
  | ok value => cases raised

theorem map_eq_ok {ε α β : Type} {x : Except ε α} {f : α → β} {answer : β}
    (returned : x.map f = .ok answer) : ∃ value, x = .ok value ∧ f value = answer := by
  cases x with
  | error e => cases returned
  | ok value => exact ⟨value, rfl, Except.ok.inj returned⟩

theorem bind_eq_ok {ε α β : Type} {x : Except ε α} {f : α → Except ε β} {answer : β}
    (returned : x >>= f = .ok answer) : ∃ value, x = .ok value ∧ f value = .ok answer := by
  cases x with
  | error e => cases returned
  | ok value => exact ⟨value, rfl, returned⟩

theorem bind_eq_error {ε α β : Type} {x : Except ε α} {f : α → Except ε β} {e : ε}
    (raised : x >>= f = .error e) :
    x = .error e ∨ ∃ value, x = .ok value ∧ f value = .error e := by
  cases x with
  | error e' => exact .inl (congrArg Except.error (Except.error.inj raised))
  | ok value => exact .inr ⟨value, rfl, raised⟩

/-- A loop that collects answers the list whose every entry its step answered. -/
theorem mapM_eq_ok {ε α β : Type} {f : α → Except ε β} {items : List α} {answers : List β} :
    items.mapM f = .ok answers ↔ List.Forall₂ (fun item answer => f item = .ok answer) items
      answers := by
  induction items generalizing answers with
  | nil => cases answers <;> simp [pure, Except.pure]
  | cons item rest inductionHypothesis =>
    rw [List.mapM_cons]
    constructor
    · intro collected
      obtain ⟨answer, first, afterFirst⟩ := bind_eq_ok collected
      obtain ⟨others, last, same⟩ := bind_eq_ok afterFirst
      cases same
      exact .cons first (inductionHypothesis.mp last)
    · rintro (_ | ⟨first, last⟩)
      rw [first, inductionHypothesis.mpr last]
      rfl

theorem mapM_getElem? {ε α β : Type} {f : α → Except ε β} {items : List α} {answers : List β}
    (collected : items.mapM f = .ok answers) {index : Nat} {item : α}
    (here : items[index]? = some item) :
    ∃ answer, answers[index]? = some answer ∧ f item = .ok answer := by
  have all := mapM_eq_ok.mp collected
  clear collected
  induction all generalizing index with
  | nil => simp at here
  | cons first _ inductionHypothesis =>
    cases index with
    | zero =>
      obtain rfl := Option.some.inj here
      exact ⟨_, rfl, first⟩
    | succ index => exact inductionHypothesis (by simpa using here)

theorem mapM_isOk {ε α β : Type} {f : α → Except ε β} {items : List α} :
    (∃ answers, items.mapM f = .ok answers) ↔ ∀ item ∈ items, ∃ answer, f item = .ok answer := by
  simp only [mapM_eq_ok]
  constructor
  · rintro ⟨answers, all⟩ item member
    induction all with
    | nil => cases member
    | cons first _ inductionHypothesis =>
      rcases List.mem_cons.mp member with rfl | later
      · exact ⟨_, first⟩
      · exact inductionHypothesis later
  · intro each
    induction items with
    | nil => exact ⟨[], .nil⟩
    | cons item rest inductionHypothesis =>
      obtain ⟨answer, first⟩ := each item List.mem_cons_self
      obtain ⟨answers, last⟩ := inductionHypothesis fun other member =>
        each other (List.mem_cons_of_mem _ member)
      exact ⟨answer :: answers, .cons first last⟩

/-- A loop that collects raises what its step raised for some entry. -/
theorem mapM_eq_error {ε α β : Type} {f : α → Except ε β} {items : List α} {e : ε}
    (raised : items.mapM f = .error e) : ∃ item ∈ items, f item = .error e := by
  induction items with
  | nil => cases raised
  | cons item rest inductionHypothesis =>
    rw [List.mapM_cons] at raised
    rcases bind_eq_error raised with first | ⟨answer, _, afterFirst⟩
    · exact ⟨item, List.mem_cons_self, first⟩
    · rcases bind_eq_error afterFirst with later | ⟨answers, _, ended⟩
      · obtain ⟨other, member, failed⟩ := inductionHypothesis later
        exact ⟨other, List.mem_cons_of_mem _ member, failed⟩
      · cases ended

/-- A loop that returns returned from each step. -/
theorem forM_eq_ok {ε α : Type} {f : α → Except ε PUnit} {items : List α}
    (returned : items.forM f = .ok ()) : ∀ item ∈ items, f item = .ok () := by
  induction items with
  | nil => simp
  | cons item rest inductionHypothesis =>
    rw [List.forM_eq_forM, List.forM_cons] at returned
    obtain ⟨_, first, last⟩ := bind_eq_ok returned
    exact List.forall_mem_cons.mpr ⟨first, inductionHypothesis last⟩

/-- A loop each step of which returns returns. -/
theorem forM_isOk {ε α : Type} {f : α → Except ε Unit} {items : List α}
    (each : ∀ item ∈ items, f item = .ok ()) : items.forM f = .ok () := by
  induction items with
  | nil => rfl
  | cons item rest inductionHypothesis =>
    rw [List.forM_eq_forM, List.forM_cons, each item List.mem_cons_self]
    exact inductionHypothesis fun other member => each other (List.mem_cons_of_mem _ member)

/-- A loop raises what its step raised for some entry. -/
theorem forM_eq_error {ε α : Type} {f : α → Except ε Unit} {items : List α} {e : ε}
    (raised : items.forM f = .error e) : ∃ item ∈ items, f item = .error e := by
  induction items with
  | nil => cases raised
  | cons item rest inductionHypothesis =>
    rw [List.forM_eq_forM, List.forM_cons] at raised
    rcases bind_eq_error raised with first | ⟨_, _, later⟩
    · exact ⟨item, List.mem_cons_self, first⟩
    · obtain ⟨other, member, failed⟩ := inductionHypothesis later
      exact ⟨other, List.mem_cons_of_mem _ member, failed⟩

/-! ### Exceptions -/

/-- The exceptions that reach or leave this package, a subclass beside its base. What an
exception holds is its message and the fields a handler reads. -/
inductive Exc
  | valueError (message : Str)
  | jsonDecodeError (message : Str)
  | unicodeDecodeError (message : Str)
  | typeError (message : Str)
  | keyError (message : Str)
  | recursionError (message : Str)
  | decimalException (message : Str)
  | osError (message : Str)
  | brokenPipeError (message : Str)
  | connectionAbortedError (message : Str)
  | connectionResetError (message : Str)
  | httpException (message : Str)
  | keyboardInterrupt
  | btcRpcValueError (message : Str)
  | btcRpcTypeError (message : Str)
  | fetchError (message : Str)
  | httpError (message : Str) (status : Nat)
  | rpcError (message : Str) (code : Int) (data : Json)
  | overflowError (message : Str)
deriving DecidableEq

/-- `isinstance(e, ValueError)`. -/
def Exc.isValueError : Exc → Bool
  | .valueError _ | .jsonDecodeError _ | .unicodeDecodeError _ | .btcRpcValueError _ => true
  | _ => false

def Exc.isRecursionError : Exc → Bool
  | .recursionError _ => true
  | _ => false

def Exc.isDecimalException : Exc → Bool
  | .decimalException _ => true
  | _ => false

/-- `isinstance(e, FetchError)`: `HttpError` and `RpcError` derive from it. -/
def Exc.isFetchError : Exc → Bool
  | .fetchError _ | .httpError _ _ | .rpcError _ _ _ => true
  | _ => false

/-- `isinstance(e, OSError)`. -/
def Exc.isOSError : Exc → Bool
  | .osError _ | .brokenPipeError _ | .connectionAbortedError _ | .connectionResetError _ => true
  | _ => false

def Exc.isHTTPException : Exc → Bool
  | .httpException _ => true
  | _ => false

/-- The first argument an exception was built with. -/
def Exc.message : Exc → Str
  | .valueError message | .jsonDecodeError message | .unicodeDecodeError message
  | .typeError message | .keyError message | .recursionError message
  | .decimalException message | .osError message | .brokenPipeError message
  | .connectionAbortedError message | .connectionResetError message | .httpException message
  | .btcRpcValueError message | .btcRpcTypeError message | .fetchError message
  | .httpError message _ | .rpcError message _ _ | .overflowError message => message
  | .keyboardInterrupt => []

/-- An exception without its message: its class, and the fields a handler reads. -/
def Exc.erased : Exc → Exc
  | .valueError _ => .valueError []
  | .jsonDecodeError _ => .jsonDecodeError []
  | .unicodeDecodeError _ => .unicodeDecodeError []
  | .typeError _ => .typeError []
  | .keyError _ => .keyError []
  | .recursionError _ => .recursionError []
  | .decimalException _ => .decimalException []
  | .osError _ => .osError []
  | .brokenPipeError _ => .brokenPipeError []
  | .connectionAbortedError _ => .connectionAbortedError []
  | .connectionResetError _ => .connectionResetError []
  | .httpException _ => .httpException []
  | .keyboardInterrupt => .keyboardInterrupt
  | .btcRpcValueError _ => .btcRpcValueError []
  | .btcRpcTypeError _ => .btcRpcTypeError []
  | .fetchError _ => .fetchError []
  | .httpError _ status => .httpError [] status
  | .rpcError _ code data => .rpcError [] code data
  | .overflowError _ => .overflowError []

/-- Two runs answer the same value, or raise alike but for the message. -/
def Alike {α : Type} (first second : Except Exc α) : Prop :=
  first.mapError Exc.erased = second.mapError Exc.erased

theorem alike_refl {α : Type} (outcome : Except Exc α) : Alike outcome outcome := rfl

theorem Alike.symm {α : Type} {first second : Except Exc α} (alike : Alike first second) :
    Alike second first := Eq.symm alike

theorem alike_ok {α : Type} {value : α} {outcome : Except Exc α} (alike : Alike (.ok value) outcome) :
    outcome = .ok value := by
  cases outcome with
  | ok other => exact congrArg Except.ok (Except.ok.inj alike).symm
  | error e => cases alike

theorem alike_rpcError {α : Type} {message : Str} {code : Int} {data : Json}
    {outcome : Except Exc α} (alike : Alike (.error (.rpcError message code data)) outcome) :
    ∃ other, outcome = .error (.rpcError other code data) := by
  cases outcome with
  | ok other => cases alike
  | error e =>
    have same := Except.error.inj alike
    cases e with
    | rpcError other code' data' =>
      cases same
      exact ⟨other, rfl⟩
    | _ => cases same

/-- `dict[name]`. -/
def Dict.getItem (members : Dict) (name : Str) : Except Exc Json :=
  match members.lookup name with
  | some value => .ok value
  | none => .error (.keyError name)

/-! ### The json parser -/

/-- `json.loads` under this package's hooks. -/
abbrev Loads := Bytes → Except Exc Json

/-- What the parser and its hooks raise. -/
def Exc.FromLoads (e : Exc) : Prop :=
  e.isValueError ∨ e.isRecursionError ∨ e.isDecimalException ∨ ∃ message, e = .fetchError message

/-- The parser raises nothing else. -/
def LoadsRaises (loads : Loads) : Prop :=
  ∀ payload e, loads payload = .error e → e.FromLoads

/-! ### The interpreter -/

/-- What the package reads of the interpreter it runs under. -/
structure Interpreter where
  /-- `sys.get_int_max_str_digits()`, `0` for no limit. -/
  maxStrDigits : Nat
  /-- How many containers `json.loads` may be inside of before it raises `RecursionError`. -/
  nesting : Nat
  /-- Whether the decimal module builds a coefficient and an exponent. -/
  decimalBuilds : Nat → Int → Bool
  /-- Whether the caller's decimal context traps `InvalidOperation`. -/
  trapsInvalidOperation : Bool
  /-- `repr(value)`. -/
  repr : Json → Str
  /-- `repr` of a finite float, from its 64 bits. -/
  floatRepr : BitVec 64 → Str
  /-- The text of `json`'s own error about a document. -/
  jsonErrorText : Str → Str

/-- CPython's own settings on a 64-bit machine, with the default decimal context. -/
def cpython : Interpreter where
  maxStrDigits := 4300
  nesting := 994
  decimalBuilds := fun coefficient exponent =>
    exponent + digitCount coefficient - 1 ≤ 999999999999999999 &&
      -1999999999999999997 ≤ exponent
  trapsInvalidOperation := true
  repr := Json.typeName
  floatRepr := fun _ => []
  jsonErrorText := fun _ => []

end BitcoinCoreRpc
