/-
This file compares what `call` and `call_stream` take for text.

A reply is decoded twice over: whole, by an encoding told from its first octets and with
the octets of a surrogate let through, or as it arrives, by a decoder that is strict. The
second answers no body that is not UTF-8, wherever it is not and however it is cut. The
first answers the bodies that are a document once surrogates are let through, and only
those.
-/

import BitcoinCoreRpc.CallStream

namespace BitcoinCoreRpc

open JsonText Steps

/-! ### What is read as it arrives -/

section Strict

variable {α : Type} {py : Interpreter} {where_ requestId : Str} {walk : StreamStep α}
  {maxBodySize : Nat} {source : List Arrival}

/-- A reply that was read to its end is UTF-8, whatever was made of it. -/
theorem accepts_of_readReply {kept : Kept α} {after : Stream}
    (walks : WalkProper (fun _ => False) where_ walk) (deep : maxStreamDepth ≤ py.nesting)
    (complete : Complete source)
    (ran : readReply py where_ walk maxBodySize (Stream.new source) = (.ok kept, after)) :
    Utf8.Accepts .start (contents source) := by
  have positive := Int.natCast_nonneg maxBodySize
  have ready : (Stream.new source).Ready (contents source) := .new complete
  have reads := readReply_proper walks positive deep ready rfl
  rw [ran] at reads
  obtain ⟨text, follows⟩ := reads.moves.follows
  obtain ⟨first, entered, enters, ran⟩ := seq_eq_ok ran
  obtain ⟨_, _, ⟨⟩, ran⟩ := seq_eq_ok ran
  obtain ⟨kept', looped, loops, ran⟩ := seq_eq_ok ran
  obtain ⟨_, last, ends, ran⟩ := seq_eq_ok ran
  cases ran
  have entering := @enter_proper (fun _ => False) py where_ _ _ .object ready
  have ready' := entering.ready ready enters
  have unkept : entered.kept = none := by
    have := entering.unkept rfl
    rwa [enters] at this
  have looping := @memberLoop_proper _ _ _ _ _ _ _ _ walks positive deep entered.rounds first
    ⟨[], none⟩ ready' unkept (by unfold Stream.rounds; omega)
  obtain ⟨_, _, _, drained, between⟩ := end_eq_ok (looping.ready ready' loops).sane ends
  -- the decoder stands between characters with nothing to come, as it stood at first
  refine (follows.accepts (by rintro ⟨⟩)).mpr ?_
  rw [drained, between]
  exact Utf8.accepts_nil.mpr rfl

/-- So a body that is not UTF-8 is refused, wherever it is not and however it is cut. -/
theorem streamedResult_illFormed (walks : WalkProper (fun _ => False) where_ walk)
    (deep : maxStreamDepth ≤ py.nesting) (complete : Complete source)
    (illFormed : ¬Utf8.Accepts .start (contents source)) :
    IsFetchError (streamedResult py where_ walk maxBodySize requestId 200 source) := by
  unfold streamedResult
  rw [if_neg (by simp)]
  rcases ran : readReply py where_ walk maxBodySize (Stream.new source) with ⟨e | kept, after⟩
  · obtain ⟨message, rfl⟩ :=
      readReply_eq_error walks (Int.natCast_nonneg maxBodySize) deep complete ran
    exact ⟨message, rfl⟩
  · exact absurd (accepts_of_readReply walks deep complete ran) illFormed

end Strict

/-! ### What is read whole -/

section Whole

variable {py : Interpreter} {where_ : Str} {body : Bytes}

/-- A body with no byte order mark and no NUL among its first four octets. -/
structure Unmarked (body : Bytes) : Prop where
  utf8 : ¬[0xEF, 0xBB, 0xBF] <+: body
  big : ¬[0xFE, 0xFF] <+: body
  little : ¬[0xFF, 0xFE] <+: body
  noNul : 0 ∉ body.take 4

/-- Such a body is taken for UTF-8. -/
theorem Unmarked.detectEncoding (unmarked : Unmarked body) : detectEncoding body = .utf8 := by
  obtain ⟨utf8, big, little, noNul⟩ := unmarked
  have little' : ¬[0xFF, 0xFE, 0x00, 0x00] <+: body := fun front =>
    little ((List.prefix_append [0xFF, 0xFE] [0x00, 0x00]).trans front)
  have big' : ¬[0x00, 0x00, 0xFE, 0xFF] <+: body := by
    rintro ⟨rest, rfl⟩
    exact noNul List.mem_cons_self
  unfold BitcoinCoreRpc.detectEncoding
  rw [if_neg (not_or.mpr ⟨big', little'⟩), if_neg (not_or.mpr ⟨big, little⟩), if_neg utf8]
  rcases body with _ | ⟨first, _ | ⟨second, _ | ⟨third, _ | ⟨fourth, rest⟩⟩⟩⟩
  · rfl
  · rfl
  · simp only [List.take_succ_cons, List.take_nil, List.mem_cons, List.not_mem_nil, or_false,
      not_or] at noNul
    simp only [if_neg (Ne.symm noNul.1), if_neg (Ne.symm noNul.2)]
  · rfl
  · simp only [List.take_succ_cons, List.take_zero, List.mem_cons, List.not_mem_nil, or_false,
      not_or] at noNul
    simp only [if_neg (Ne.symm noNul.1), if_neg (Ne.symm noNul.2.1)]

/-- A body that is a document once surrogates are let through: each code point in the octets it has
in UTF-8, a surrogate in the three it would have, and within what the parser builds. -/
def Surrogated (py : Interpreter) (body : Bytes) : Prop :=
  ∃ document : Document, body = Utf8.encode document.text ∧
    (∀ code ∈ document.text, Utf8.Admits true code) ∧
    document.value.depth ≤ py.nesting ∧ document.value.Numbers (Builds py)

/-- They are the bodies `json.loads` answers, of those it takes for UTF-8. -/
theorem loads_isOk (utf8 : detectEncoding body = .utf8) :
    (∃ value, loads py body = .ok value) ↔ Surrogated py body := by
  unfold loads
  rw [utf8, decodeAs]
  constructor
  · rintro ⟨value, loaded⟩
    cases decoded : Utf8.decode true body with
    | none =>
      rw [decoded] at loaded
      cases loaded
    | some text =>
      rw [decoded] at loaded
      obtain ⟨encoded, admitted⟩ := Utf8.decode_eq_some_iff.mp decoded
      obtain ⟨document, rfl, built⟩ := decodeDocument_eq_ok.mp loaded
      exact ⟨document, encoded, admitted, (build_isOk py document.value py.nesting).mp ⟨value, built⟩⟩
  · rintro ⟨document, encoded, admitted, within⟩
    obtain ⟨value, built⟩ := (build_isOk py document.value py.nesting).mpr within
    refine ⟨value, ?_⟩
    rw [Utf8.decode_eq_some_iff.mpr ⟨encoded, admitted⟩]
    exact decodeDocument_eq_ok.mpr ⟨document, rfl, built⟩

/-- What makes such a body no UTF-8 is a surrogate of the document. -/
theorem Surrogated.exists_surrogate (surrogated : Surrogated py body)
    (illFormed : ¬Utf8.Accepts .start body) :
    ∃ document : Document, body = Utf8.encode document.text ∧
      ∃ code ∈ document.text, 0xD800 ≤ code ∧ code < 0xE000 := by
  obtain ⟨document, encoded, admitted, _⟩ := surrogated
  refine ⟨document, encoded, ?_⟩
  by_contra scalar
  push Not at scalar
  refine illFormed (Utf8.accepts_start_iff.mpr ⟨document.text, ?_⟩)
  refine Utf8.decode_eq_some_iff.mpr ⟨encoded, fun code member => ⟨(admitted code member).1, .inr ?_⟩⟩
  by_cases low : code < 0xD800
  · exact .inl low
  · exact .inr (scalar code member (not_lt.mp low))

/-- Under a 200 the parse is answered or refused, as `json.loads` answers. -/
theorem parsedJsonBody_refused :
    IsFetchError (parsedJsonBody (loads py) where_ 200 body) ↔ ¬∃ value, loads py body = .ok value := by
  rcases parsedJsonBody_cases (loads_raises py) where_ 200 body with
    ⟨value, loaded, parsed⟩ | ⟨raised, e, failed, parsed, ⟨_, message, rfl⟩ | ⟨other, _⟩⟩
  · refine iff_of_false ?_ (not_not.mpr ⟨value, loaded⟩)
    rintro ⟨message, refused⟩
    cases parsed.symm.trans refused
  · refine iff_of_true ⟨message, parsed⟩ ?_
    rintro ⟨value, loaded⟩
    cases failed.symm.trans loaded
  · exact absurd rfl other

end Whole

/-! ### Where the two agree -/

/-- Of the bodies that are not UTF-8 and bear no mark of another encoding, both refuse those that no
letting through of surrogates makes a document of; the others one reader answers and one refuses. -/
theorem illFormed_refused_iff {α : Type} (py : Interpreter) (deep : maxStreamDepth ≤ py.nesting)
    (where_ requestId : Str) (maxBodySize : Nat) {walk : StreamStep α}
    (walks : WalkProper (fun _ => False) where_ walk) {source : List Arrival}
    (complete : Complete source) (illFormed : ¬Utf8.Accepts .start (contents source))
    (unmarked : Unmarked (contents source)) :
    (IsFetchError (parsedJsonBody (loads py) where_ 200 (contents source)) ∧
        IsFetchError (streamedResult py where_ walk maxBodySize requestId 200 source)) ↔
      ¬Surrogated py (contents source) := by
  have strict : IsFetchError (streamedResult py where_ walk maxBodySize requestId 200 source) :=
    streamedResult_illFormed walks deep complete illFormed
  rw [and_iff_left strict, parsedJsonBody_refused, loads_isOk unmarked.detectEncoding]

/-- A string of an octet UTF-8 has no use for, in a read of its own. -/
def strayReply : List Arrival :=
  [.octets 0x22 [], .octets 0xFF [], .octets 0x22 []]

theorem illFormed_refused_iff_stray :
    IsFetchError (parsedJsonBody (loads cpython) (str "m at u") 200 [0x22, 0xFF, 0x22]) ∧
      IsFetchError (streamedResult cpython (str "m at u") (value cpython (str "m at u") (8 : Nat))
        (8 : Nat) (str "a") 200 strayReply) := by
  have deep : maxStreamDepth ≤ cpython.nesting := by decide
  have complete : Complete strayReply := by
    intro arrival member e
    simp only [strayReply, List.mem_cons, List.not_mem_nil, or_false] at member
    rcases member with rfl | rfl | rfl <;> rintro ⟨⟩
  have illFormed : ¬Utf8.Accepts .start (contents strayReply) := by
    rw [Utf8.accepts_start_iff]
    rintro ⟨codes, decoded⟩
    cases decoded
  refine (illFormed_refused_iff cpython deep (str "m at u") (str "a") 8
    (walks_value (str "m at u") 8 deep).proper complete illFormed
    ⟨by decide, by decide, by decide, by decide⟩).mpr ?_
  rintro ⟨document, encoded, admitted, _⟩
  cases Utf8.decode_eq_some_iff.mpr ⟨encoded, admitted⟩

/-- The reply `{"result":"…","id":"a"}`, its result of the three octets `ED A0 80`. -/
def surrogateReply : Bytes :=
  str "\x7b\"result\":\"" ++ [0xED, 0xA0, 0x80] ++ str "\",\"id\":\"a\"\x7d"

theorem parsedJsonBody_passes_surrogate :
    ¬Utf8.Accepts .start surrogateReply ∧ Unmarked surrogateReply ∧
      parsedJsonBody (loads cpython) (str "m at u") 200 surrogateReply =
        .ok (.object [(str "result", .string [0xD800]), (str "id", .string (str "a"))]) ∧
      result cpython (loads cpython) (str "m") (str "u") (str "a") 200 surrogateReply =
        .ok (.string [0xD800]) ∧
      streamedResult cpython (str "m at u") (value cpython (str "m at u") 1024) 1024 (str "a") 200
          [.octets 0x7B (surrogateReply.drop 1)] =
        .error (.fetchError (str "m at u: a reply that is not utf-8")) ∧
      contents [.octets 0x7B (surrogateReply.drop 1)] = surrogateReply := by
  refine ⟨?_, ⟨by decide, by decide, by decide, by decide⟩, ?_⟩
  · rw [Utf8.accepts_start_iff]
    rintro ⟨codes, decoded⟩
    cases (by decide +kernel : Utf8.decode false surrogateReply = none).symm.trans decoded
  · decide +kernel

end BitcoinCoreRpc
