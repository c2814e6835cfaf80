/-
This file says that `call_stream` reads a reply as `call` reads it.

The two parse a body in their own ways, octet by octet and as one text, so they meet at
the tree of the body. What `json.loads` makes of an object is the dict of its members,
the last of two under one name; what the reader as the body arrives keeps is the members
it takes one by one. Both hold the same under the four names a reply is told by, and so
the rule that tells it comes to the same. A body that is no object both refuse, and some
bodies the reader refuses for its bounds alone.
-/

import BitcoinCoreRpc.StreamMoves
import BitcoinCoreRpc.StreamedReply
import BitcoinCoreRpc.Unambiguous

namespace BitcoinCoreRpc

open JsonText Steps

variable {py : Interpreter} {where_ : Str} {maxBodySize : Int}

/-! ### What `json.loads` makes of an object -/

/-- A member's name, whatever its length. -/
def Named (py : Interpreter) (head : Head .object) (name : Str) : Prop :=
  keptValue py (quoted head.pieces) = .ok (.string name)

/-- A member as json reads it: its name and its value. -/
structure Parsed (py : Interpreter) (slot : Head .object × Value) (pair : Str × Json) : Prop where
  name : Named py slot.1 pair.1
  value : keptValue py slot.2.text = .ok pair.2

theorem exists_parsed {slots : List (Head .object × Value)} {pairs : List (Str × Json)}
    (parsed : List.Forall₂ (Parsed py) slots pairs) :
    ∀ slot ∈ slots, ∃ pair, Parsed py slot pair := by
  induction parsed with
  | nil => exact List.forall_mem_nil _
  | cons first _ inductionHypothesis =>
    exact List.forall_mem_cons.mpr ⟨⟨_, first⟩, inductionHypothesis⟩

/-- What is kept of a value is parsed to what the tree of its code points builds. -/
theorem keptValue_encodes {codes octets : Value} (encodes : Encodes codes octets)
    (scalar : ∀ code ∈ codes.text, Utf8.IsScalar code) :
    keptValue py octets.text = build py codes py.nesting := by
  have decoded : Utf8.decode false octets.text = some codes.text :=
    Utf8.decode_eq_some_iff.mpr ⟨encodes.text, scalar⟩
  obtain ⟨other, _, same, built⟩ := @keptValue_text py octets codes.text decoded
  rw [built, ← decodeDocument_text py ⟨.none, other, .none⟩,
    ← decodeDocument_text py ⟨.none, codes, .none⟩]
  simp [Document.text, Blank.none, same]

/-- A slot that was built is one that is parsed. -/
theorem parsed_of_built {head head' : Head .object} {codes octets : Value} {budget : Nat}
    {first : Json} (heads : HeadEncodes head head') (values : Encodes codes octets)
    (scalar : ∀ code ∈ head.text ++ codes.text, Utf8.IsScalar code) (room : budget ≤ py.nesting)
    (built : build py codes budget = .ok first) : Parsed py (head', octets) (headName head, first) := by
  have shallow := ((build_isOk py codes budget).mp ⟨first, built⟩).1
  constructor
  · cases heads with | @member pad names pieces gap lead spelled =>
    have named : ∀ code ∈ (Value.string names).text, Utf8.IsScalar code := by
      intro code member
      refine scalar code (List.mem_append_left _ ?_)
      simp only [Head.text, List.append_assoc, List.mem_append]
      exact .inr (.inl member)
    exact keptValue_encodes (.string spelled) named
  · rw [keptValue_encodes values fun code member => scalar code (List.mem_append_right _ member)]
    exact build_budget py codes built (shallow.trans room)

theorem parsed_of_builtTail {budget : Nat} (room : budget ≤ py.nesting) :
    {codes octets : Tail .object} → {pairs : List (Str × Json)} → TailEncodes codes octets →
      (∀ code ∈ codes.text, Utf8.IsScalar code) → buildTail py codes budget = .ok pairs →
        List.Forall₂ (Parsed py) octets.slots pairs
  | _, _, _, .close pad, _, built => by
    cases built
    exact .nil
  | _, _, _, @TailEncodes.more _ pad head head' codes octets tail tail' heads values tails, scalar,
    built => by
    rw [buildTail] at built
    obtain ⟨first, firstBuilt, built⟩ := bind_eq_ok built
    obtain ⟨others, othersBuilt, done⟩ := bind_eq_ok built
    cases done
    have parts : ∀ code ∈ head.text ++ codes.text ++ tail.text, Utf8.IsScalar code :=
      fun code member => scalar code (List.mem_append_right _ (List.mem_cons_of_mem _ member))
    have split := List.forall_mem_append.mp parts
    exact .cons (parsed_of_built heads values split.1 room firstBuilt)
      (parsed_of_builtTail room tails split.2 othersBuilt)

/-- An object that was built is the dict of its members. -/
theorem parsed_of_object {codes octets : Value} {budget : Nat} {answer : Json}
    (encodes : Encodes codes octets) (isObject : octets.IsObject)
    (scalar : ∀ code ∈ codes.text, Utf8.IsScalar code) (room : budget ≤ py.nesting)
    (built : build py codes budget = .ok answer) :
    ∃ pairs, answer = .object (Dict.ofPairs pairs) ∧
      List.Forall₂ (Parsed py) octets.members pairs := by
  cases encodes with
  | literal which => cases isObject
  | number number => cases isObject
  | string spelled => cases isObject
  | empty kind pad =>
    cases kind with
    | array => cases isObject
    | object =>
      cases budget with
      | zero => cases built
      | succ budget =>
        cases built
        exact ⟨[], rfl, .nil⟩
  | @full kind head head' codes octets tail tail' heads values tails =>
    cases kind with
    | array => cases isObject
    | object =>
      cases budget with
      | zero => cases built
      | succ budget =>
        rw [build] at built
        obtain ⟨first, firstBuilt, built⟩ := bind_eq_ok built
        obtain ⟨others, othersBuilt, done⟩ := bind_eq_ok built
        cases done
        have parts : ∀ code ∈ head.text ++ codes.text ++ tail.text, Utf8.IsScalar code :=
          fun code member => scalar code (List.mem_cons_of_mem _ member)
        have split := List.forall_mem_append.mp parts
        have less := (Nat.le_succ budget).trans room
        exact ⟨_, rfl, .cons (parsed_of_built heads values split.1 less firstBuilt)
          (parsed_of_builtTail less tails split.2 othersBuilt)⟩

/-- A body is an object with white space around it. -/
structure Spells (body : Bytes) (object : Value) : Prop where
  text : ∃ lead trail : Blank, body = lead.codes ++ object.text ++ trail.codes
  isObject : object.IsObject

/-- A body is one object at most. -/
theorem spells_unique {body : Bytes} {object other : Value} (first : Spells body object)
    (second : Spells body other) : object = other := by
  obtain ⟨lead, trail, rfl⟩ := first.text
  obtain ⟨lead', trail', same⟩ := second.text
  simp only [List.append_assoc] at same
  obtain ⟨_, values⟩ := pad_unique (noBlank_value object _) (noBlank_value other _) same
  exact (value_unique object other (delimits_pad trail) (delimits_pad trail') values).1

/-- An object's opening bracket is what its body begins with, past white space. -/
theorem Spells.utf8 {body : Bytes} {object : Value} (spells : Spells body object) :
    detectEncoding body = .utf8 := by
  obtain ⟨lead, trail, rfl⟩ := spells.text
  obtain ⟨code, more, text, begins⟩ := object.text_eq_cons
  have noNul := (lead.noNul.append object.noNul).append trail.noNul
  cases split : lead.codes with
  | nil =>
    rw [split, text] at noNul
    rw [text]
    exact detectEncoding_of_noNul begins.ascii noNul
  | cons first rest =>
    rw [split] at noNul
    exact detectEncoding_of_noNul (blank_ascii (lead.blank first (split ▸ List.mem_cons_self))) noNul

/-- `json.loads` answers the dict of an object's members, where it builds the object. -/
theorem loads_of_spells {body : Bytes} {object : Value} (spells : Spells body object)
    (wellFormed : Utf8.Accepts .start body) (numbers : object.Numbers (Builds py))
    (shallow : object.depth ≤ py.nesting) :
    ∃ pairs, loads py body = .ok (.object (Dict.ofPairs pairs)) ∧
      List.Forall₂ (Parsed py) object.members pairs := by
  obtain ⟨chars, decoded⟩ := Utf8.accepts_start_iff.mp wellFormed
  have utf8 := spells.utf8
  obtain ⟨encoded, scalar⟩ := Utf8.decode_eq_some_iff.mp decoded
  obtain ⟨lead, trail, text⟩ := spells.text
  rw [encoded, List.append_assoc] at text
  obtain ⟨later, rfl, left⟩ := encode_split lead.ascii text
  obtain ⟨codes, behind, encodes, rfl, last⟩ := exists_value_codes object left
  obtain ⟨nothing, rfl, empty⟩ := encode_split trail.ascii (last.trans (List.append_nil _).symm)
  rw [Utf8.encode_eq_nil.mp empty, List.append_nil] at decoded scalar
  have built : loads py body = build py codes py.nesting := by
    rw [loads, utf8, decodeAs, Utf8.decode_of_strict decoded]
    dsimp only
    rw [← decodeDocument_text py ⟨lead, codes, trail⟩, Document.text, List.append_assoc]
  obtain ⟨answer, isOk⟩ := (build_isOk py codes py.nesting).mpr
    ⟨encodes.depth ▸ shallow, encodes.numbers.mp numbers⟩
  obtain ⟨pairs, rfl, parsed⟩ := parsed_of_object encodes spells.isObject
    (fun code member => scalar code (by simp [member])) le_rfl isOk
  exact ⟨pairs, built.trans isOk, parsed⟩

/-- Only an object is built to a dict. -/
theorem isObject_of_build {codes octets : Value} {budget : Nat} {reply : Dict}
    (encodes : Encodes codes octets) (built : build py codes budget = .ok (.object reply)) :
    octets.IsObject := by
  cases encodes with
  | literal which => cases which <;> cases built
  | number number =>
    rw [build, buildNumber] at built
    split_ifs at built
    · obtain ⟨_, _, other⟩ := map_eq_ok built
      cases other
    · obtain ⟨_, _, other⟩ := map_eq_ok built
      cases other
  | string spelled => cases built
  | empty kind pad =>
    cases kind with
    | object => trivial
    | array => cases budget <;> cases built
  | full heads values tails =>
    rename_i kind _ _ _ _ _ _
    cases kind with
    | object => trivial
    | array =>
      cases budget with
      | zero => cases built
      | succ budget =>
        rw [build] at built
        obtain ⟨_, _, built⟩ := bind_eq_ok built
        obtain ⟨_, _, done⟩ := bind_eq_ok built
        cases done

/-- What `json.loads` answers a dict for, taking it for UTF-8, is an object it builds. -/
theorem exists_spells {body : Bytes} {reply : Dict} (wellFormed : Utf8.Accepts .start body)
    (utf8 : detectEncoding body = .utf8) (loaded : loads py body = .ok (.object reply)) :
    ∃ object pairs, Spells body object ∧ object.Numbers (Builds py) ∧
      reply = Dict.ofPairs pairs ∧ List.Forall₂ (Parsed py) object.members pairs := by
  obtain ⟨chars, decoded⟩ := Utf8.accepts_start_iff.mp wellFormed
  obtain ⟨encoded, scalar⟩ := Utf8.decode_eq_some_iff.mp decoded
  rw [loads, utf8, decodeAs, Utf8.decode_of_strict decoded] at loaded
  obtain ⟨⟨lead, codes, trail⟩, rfl, built⟩ := decodeDocument_eq_ok.mp loaded
  obtain ⟨object, encodes⟩ := exists_value_octets codes
  have isObject : object.IsObject := isObject_of_build encodes built
  obtain ⟨pairs, same, parsed⟩ := parsed_of_object encodes isObject
    (fun code member => scalar code (by simp [Document.text, member])) le_rfl built
  refine ⟨object, pairs, ⟨⟨lead, trail, ?_⟩, isObject⟩, ?_, Json.object.inj same, parsed⟩
  · rw [encoded, Document.text, Utf8.encode_append, Utf8.encode_append,
      Utf8.encode_ascii lead.ascii, Utf8.encode_ascii trail.ascii, encodes.text]
  · exact encodes.numbers.mpr ((build_isOk py codes py.nesting).mp ⟨_, built⟩).2

/-! ### The names a reply is told by -/

/-- The members `_discriminate` reads. -/
def replyNames : List Str :=
  str "result" :: streamEnvelope

/-- A name of few characters is no long one, however it is escaped. -/
theorem Named.short {head : Head .object} {name : Str} (named : Named py head name)
    (few : name.length ≤ 7) : (quoted head.pieces).length ≤ maxStreamName := by
  unfold Named at named
  cases decoded : Utf8.decode false (quoted head.pieces) with
  | none =>
    rw [keptValue, decoded] at named
    cases named
  | some chars =>
    obtain ⟨codes, encodes, _, built⟩ := @keptValue_text py (.string head.pieces) chars decoded
    cases encodes with | @string codes _ spelled =>
    rw [show keptValue py (quoted head.pieces) = .ok (.string (stringValue codes)) from built] at named
    cases named
    have pieces := length_le_joinHalves (codes.map Piece.code)
    have octets := encode_content_length codes
    rw [List.length_map] at pieces
    rw [stringValue] at few
    simp only [quoted, spelled, List.length_cons, List.length_append, List.length_nil]
    simp only [maxStreamName]
    omega

theorem replyNames_short : ∀ name ∈ replyNames, name.length ≤ 7 := by decide

/-- A name is what the reader calls it, or is too long to be one of those looked for. -/
theorem Named.of_nameIs {head : Head .object} {name : Str} {found : Option Str}
    (named : Named py head name) (nameIs : NameIs py head.pieces found) :
    found = some name ∨ found = none ∧ name ∉ replyNames := by
  cases found with
  | none =>
    refine .inr ⟨rfl, fun member => ?_⟩
    exact absurd (named.short (replyNames_short name member)) (not_le.mpr nameIs)
  | some text =>
    have same := Except.ok.inj (nameIs.2.symm.trans named)
    rw [Json.string.inj same]
    exact .inl rfl

/-- The reader finds every name, a long one as none. -/
theorem Named.exists_nameIs {head : Head .object} {name : Str} (named : Named py head name) :
    ∃ found, NameIs py head.pieces found := by
  by_cases fits : (quoted head.pieces).length ≤ maxStreamName
  · exact ⟨some name, fits, named⟩
  · exact ⟨none, not_le.mp fits⟩

/-! ### The dict and what the reader keeps -/

/-- A dict and what the reader kept hold the same under the names a reply is told by. -/
structure Agrees (reply : Dict) (kept : Kept Json) : Prop where
  envelope : ∀ name ∈ streamEnvelope, reply.lookup name = kept.members.lookup name
  result : reply.lookup (str "result") = kept.answer
  present : (kept.members.lookup (str "result")).isSome = kept.answer.isSome

variable {reply : Dict} {kept final : Kept Json} {slots : List (Head .object × Value)}
  {pairs : List (Str × Json)} {reads : Value → Json → Prop}

/-- A member beside them changes neither. -/
theorem Agrees.other {name : Str} {value : Json} (agrees : Agrees reply kept)
    (other : name ∉ replyNames) : Agrees (reply.set name value) kept := by
  have differs (known : Str) (member : known ∈ replyNames) :
      (reply.set name value).lookup known = reply.lookup known := by
    rw [Dict.lookup_set, if_neg]
    rintro rfl
    exact other member
  refine ⟨fun known member => ?_, ?_, agrees.present⟩
  · rw [differs known (List.mem_cons_of_mem _ member)]
    exact agrees.envelope known member
  · rw [differs _ List.mem_cons_self]
    exact agrees.result

theorem result_not_envelope : str "result" ∉ streamEnvelope := by decide

theorem Agrees.result_set {value : Json} (agrees : Agrees reply kept) :
    Agrees (reply.set (str "result") value)
      ⟨kept.members.set (str "result") .null, some value⟩ := by
  refine ⟨fun name member => ?_, ?_, ?_⟩
  · have other : name ≠ str "result" := by
      rintro rfl
      exact result_not_envelope member
    rw [Dict.lookup_set, if_neg other, Dict.lookup_set, if_neg other]
    exact agrees.envelope name member
  · rw [Dict.lookup_set, if_pos rfl]
  · rw [Dict.lookup_set, if_pos rfl]
    rfl

theorem Agrees.envelope_set {name : Str} {value : Json} (agrees : Agrees reply kept)
    (member : name ∈ streamEnvelope) :
    Agrees (reply.set name value) ⟨kept.members.set name value, kept.answer⟩ := by
  have other : str "result" ≠ name := by
    rintro rfl
    exact result_not_envelope member
  refine ⟨fun known isKnown => ?_, ?_, ?_⟩
  · rw [Dict.lookup_set, Dict.lookup_set]
    split_ifs
    · rfl
    · exact agrees.envelope known isKnown
  · rw [Dict.lookup_set, if_neg other]
    exact agrees.result
  · rw [Dict.lookup_set, if_neg other]
    exact agrees.present

/-- One member after another, the dict and what is kept go on to agree. -/
theorem Agrees.fold (parses : ∀ value answer, reads value answer →
      keptValue py value.text = .ok answer)
    (collects : Collects py maxBodySize reads kept slots final)
    (parsed : List.Forall₂ (Parsed py) slots pairs) (agrees : Agrees reply kept) :
    Agrees (pairs.foldl (fun members pair => Dict.set members pair.1 pair.2) reply) final := by
  induction collects generalizing reply pairs with
  | nil kept =>
    cases parsed
    exact agrees
  | @result kept final head value answer slots nameIs fresh isRead rest inductionHypothesis =>
    cases parsed with | @cons _ pair _ pairs first others =>
    have value_ := Except.ok.inj (first.value.symm.trans (parses _ _ isRead))
    rcases first.name.of_nameIs nameIs with same | ⟨⟨⟩, _⟩
    rw [List.foldl_cons]
    refine inductionHypothesis others ?_
    rw [← Option.some.inj same, value_]
    exact agrees.result_set
  | @envelope kept final head value name json slots nameIs member fresh isKept rest
      inductionHypothesis =>
    cases parsed with | @cons _ pair _ pairs first others =>
    have value_ := Except.ok.inj (first.value.symm.trans isKept.2.2)
    rcases first.name.of_nameIs nameIs with same | ⟨⟨⟩, _⟩
    rw [List.foldl_cons]
    refine inductionHypothesis others ?_
    rw [← Option.some.inj same, value_]
    exact agrees.envelope_set member
  | @other kept final head value found slots nameIs unasked skipped rest inductionHypothesis =>
    cases parsed with | @cons _ pair _ pairs first others =>
    rw [List.foldl_cons]
    refine inductionHypothesis others (agrees.other ?_)
    rcases first.name.of_nameIs nameIs with rfl | ⟨_, other⟩
    · obtain ⟨_, notResult, notEnvelope⟩ := unasked _ rfl
      exact List.not_mem_cons_of_ne_of_not_mem notResult notEnvelope
    · exact other

theorem agrees_new : Agrees [] ⟨[], none⟩ :=
  ⟨fun _ _ => rfl, rfl, rfl⟩

/-- Two outcomes of `_discriminate`, of what is kept and of the dict: one error, or the answer kept
beside the members and the dict's result. -/
def Concludes (answer : Option Json) : Except Exc Json → Except Exc Json → Prop
  | .error e, .error e' => e = e'
  | .ok _, .ok value => answer = some value
  | _, _ => False

theorem concludes_error (answer : Option Json) (e : Exc) :
    Concludes answer (.error e) (.error e) :=
  rfl

theorem concludes_ite {answer : Option Json} {condition : Prop} [Decidable condition]
    {first second first' second' : Except Exc Json} (yes : condition → Concludes answer first first')
    (no : ¬condition → Concludes answer second second') :
    Concludes answer (if condition then first else second)
      (if condition then first' else second') := by
  split_ifs with holds
  · exact yes holds
  · exact no holds

theorem Agrees.get {name : Str} (agrees : Agrees reply kept) (member : name ∈ streamEnvelope) :
    Dict.get reply name = Dict.get kept.members name := by
  rw [Dict.get, Dict.get, agrees.envelope name member]

theorem Agrees.has {name : Str} (agrees : Agrees reply kept) (member : name ∈ replyNames) :
    Dict.has reply name = Dict.has kept.members name := by
  unfold Dict.has
  rcases List.mem_cons.mp member with rfl | inside
  · rw [agrees.result, agrees.present]
  · rw [agrees.envelope name inside]

theorem Agrees.idError (agrees : Agrees reply kept) (requestId : Str) :
    idError py where_ requestId reply = idError py where_ requestId kept.members := by
  rw [BitcoinCoreRpc.idError, BitcoinCoreRpc.idError, agrees.get (by decide)]

/-- The result is there for the one where it is for the other. -/
theorem Agrees.getItem_result (agrees : Agrees reply kept)
    (has : Dict.has kept.members (str "result") = true) :
    Concludes kept.answer (Dict.getItem kept.members (str "result"))
      (Dict.getItem reply (str "result")) := by
  obtain ⟨_, _, held, _⟩ := getItem_eq_ok kept.members (str "result") has
  obtain ⟨value, found, answered, _⟩ := getItem_eq_ok reply (str "result")
    ((agrees.has (by decide)).trans has)
  rw [held, answered]
  exact agrees.result.symm.trans found

theorem Agrees.legacyResult (agrees : Agrees reply kept) (requestId : Str) :
    Concludes kept.answer (legacyResult py where_ requestId 200 kept.members)
      (legacyResult py where_ requestId 200 reply) := by
  have hasResult := agrees.has (show str "result" ∈ replyNames by decide)
  simp only [BitcoinCoreRpc.legacyResult, agrees.get (show str "id" ∈ streamEnvelope by decide),
    agrees.get (show str "error" ∈ streamEnvelope by decide), agrees.idError, hasResult]
  refine concludes_ite (fun _ => ?_) fun _ => concludes_ite (fun _ => rfl) fun _ =>
    concludes_ite (fun _ => rfl) fun _ => concludes_ite (fun _ => rfl) fun present => ?_
  · rcases rpcError_cases py where_ (Dict.get kept.members (str "error")) with
      ⟨_, _, _, raised, _⟩ | ⟨⟨_, raised⟩, _⟩
    · simp only [raised]
      exact concludes_error _ _
    · simp only [raised]
      exact concludes_error _ _
  · exact agrees.getItem_result (by simpa using present)

theorem Agrees.getItem {name : Str} (agrees : Agrees reply kept) (member : name ∈ streamEnvelope) :
    Dict.getItem reply name = Dict.getItem kept.members name := by
  rw [Dict.getItem, Dict.getItem, agrees.envelope name member]

theorem Agrees.v2Result (agrees : Agrees reply kept) (requestId : Str) :
    Concludes kept.answer (v2Result py where_ requestId 200 kept.members)
      (v2Result py where_ requestId 200 reply) := by
  have hasResult := agrees.has (show str "result" ∈ replyNames by decide)
  have hasError := agrees.has (show str "error" ∈ replyNames by decide)
  simp only [BitcoinCoreRpc.v2Result, agrees.get (show str "id" ∈ streamEnvelope by decide),
    agrees.idError, hasResult, hasError,
    agrees.getItem (show str "error" ∈ streamEnvelope by decide)]
  refine concludes_ite (fun _ => rfl) fun _ => concludes_ite (fun _ => rfl) fun _ =>
    concludes_ite (fun _ => rfl) fun one => concludes_ite (fun _ => ?_) fun silent => ?_
  · cases Dict.getItem kept.members (str "error") with
    | error e => exact concludes_error _ _
    | ok error => exact concludes_error _ _
  · refine agrees.getItem_result ?_
    cases has : Dict.has kept.members (str "result") with
    | true => rfl
    | false => simp [has, silent] at one

/-- `_discriminate` says of what is kept what it says of the dict. -/
theorem concluded_of_agrees (requestId : Str) (agrees : Agrees reply kept) :
    concluded py where_ requestId kept = discriminate py where_ requestId 200 reply := by
  have concludes : Concludes kept.answer (discriminate py where_ requestId 200 kept.members)
      (discriminate py where_ requestId 200 reply) := by
    simp only [discriminate, agrees.has (show str "jsonrpc" ∈ replyNames by decide),
      agrees.getItem (show str "jsonrpc" ∈ streamEnvelope by decide)]
    refine concludes_ite (fun _ => agrees.legacyResult requestId) fun _ => ?_
    cases Dict.getItem kept.members (str "jsonrpc") with
    | error e => exact concludes_error _ _
    | ok marker =>
      exact concludes_ite (fun _ => concludes_ite (fun _ => rfl) fun _ => rfl) fun _ =>
        agrees.v2Result requestId
  unfold concluded
  cases kept_ : discriminate py where_ requestId 200 kept.members with
  | error e =>
    cases said : discriminate py where_ requestId 200 reply with
    | error e' =>
      rw [kept_, said] at concludes
      exact congrArg Except.error concludes
    | ok value =>
      rw [kept_, said] at concludes
      exact concludes.elim
  | ok held =>
    cases said : discriminate py where_ requestId 200 reply with
    | error e' =>
      rw [kept_, said] at concludes
      exact concludes.elim
    | ok value =>
      rw [kept_, said] at concludes
      rw [show kept.answer = some value from concludes]
      rfl

end BitcoinCoreRpc
