/-
This file models `assert_chain`: what a node is held to, and how its reply is compared.

A node is on the chain asked for when its reply says so, and on signet when the challenge it
reports derives the magic expected: the first four octets of the double hash of the
serialized script. What the caller's challenge and the node's spell is all that is compared,
and a challenge is spelled in hex of either case or, by the caller, as bytes.

The main result says when a check returns, what it raises when it does not, and that a
challenge the caller should not have passed is refused with no request made.
-/

import BitcoinCoreRpc.CompactSize
import BitcoinCoreRpc.Request
import BitcoinCoreRpc.Sha256

namespace BitcoinCoreRpc

open JsonText (isHex hexValue)

/-! ### Chains and magic bytes -/

/-- `_MAX_NAME_SHOWN` -/
def maxNameShown : Nat := 16

/-- `_quoted`, of a string. -/
def quotedName (name : Str) : Str :=
  if maxNameShown < name.length then str "(too long to quote)" else name

/-- `_MAGIC_FROM_CHAIN` -/
def magicTable : List (Str × Bytes) :=
  [(str "main", [0xF9, 0xBE, 0xB4, 0xD9]),
    (str "test", [0x0B, 0x11, 0x09, 0x07]),
    (str "testnet4", [0x1C, 0x16, 0x3F, 0x28]),
    (str "signet", [0x0A, 0x03, 0xCF, 0x40]),
    (str "regtest", [0xFA, 0xBF, 0xB5, 0xDA])]

/-- `magic_from_chain` -/
def magicFromChain (chain : Str) : Except Exc Bytes :=
  match magicTable.lookup chain with
  | some magic => .ok magic
  | none => .error (.btcRpcValueError (str "unknown Core chain: " ++ quotedName chain ++
      str " not in (main, test, testnet4, signet, regtest)"))

/-- What `bytes.fromhex` skips between two octets. -/
def isHexSpace (code : Nat) : Bool :=
  code == 0x20 || (0x09 ≤ code && code ≤ 0x0D)

/-- `bytes.fromhex(text)`, `none` for its `ValueError`. -/
def fromHex : Str → Option Bytes
  | [] => some []
  | [code] => if isHexSpace code then some [] else none
  | high :: low :: rest =>
    if isHexSpace high then fromHex (low :: rest)
    else if isHex high && isHex low then
      (fromHex rest).map fun octets => (hexValue high * 16 + hexValue low) :: octets
    else none

/-- `octets.hex()` -/
def hexText (octets : Bytes) : Str :=
  octets.flatMap fun octet => [hexDigit (octet / 16), hexDigit (octet % 16)]

/-- A signet challenge, as a caller passes one: hex, or the bytes it spells. -/
inductive Challenge
  | hex (text : Str)
  | script (octets : Bytes)

/-- The first four octets of the sha256d of a script serialized with its length. -/
def scriptMagic (script : Bytes) : Except Exc Bytes :=
  (serialized script).map fun octets => (Sha256.sha256 (Sha256.sha256 octets)).take 4

/-- `magic_from_signet_challenge`; `hexError` is the text of the error of `bytes.fromhex`. -/
def magicFromSignetChallenge (hexError : Str → Str) : Challenge → Except Exc Bytes
  | .hex text =>
    match fromHex text with
    | some script => scriptMagic script
    | none => .error (.btcRpcValueError (str "signet challenge that is no hex: " ++ hexError text))
  | .script octets => scriptMagic octets

/-! ### The check -/

/-- `_expected_magic` -/
def expectedMagic (hexError : Str → Str) (chain : Str) (signetChallenge : Option Challenge) :
    Except Exc (Option Bytes) :=
  match signetChallenge with
  | none => if chain = str "signet" then (magicFromChain chain).map some else .ok none
  | some challenge =>
    if chain ≠ str "signet" then
      .error (.btcRpcValueError (str "a signet_challenge for chain " ++ quotedName chain ++ str "," ++
        str " which is no signet"))
    else (magicFromSignetChallenge hexError challenge).map some

/-- The members of a result, none where it is no object. -/
def info : Json → Dict
  | .object members => members
  | _ => []

/-- `_assert_chain_info` -/
def assertChainInfo (py : Interpreter) (hexError : Str → Str) (where_ url : Str) (result : Json)
    (chain : Str) (expected : Option Bytes) : Except Exc Unit :=
  match (info result).get (str "chain") with
  | .string reported =>
    if reported ≠ chain then
      .error (.btcRpcValueError (str "node at " ++ url ++ str " reports chain " ++
        py.repr (.string reported) ++ str "," ++ str " not the " ++ quotedName chain ++
        str " this client was built for"))
    else
      match expected with
      | none => .ok ()
      | some expected =>
        match (info result).get (str "signet_challenge") with
        | .string challenge =>
          match magicFromSignetChallenge hexError (.hex challenge) with
          | .error e =>
            if e.isValueError then
              .error (.fetchError (where_ ++ str ": unreadable signet_challenge: " ++ e.message))
            else .error e
          | .ok magic =>
            if magic ≠ expected then
              .error (.btcRpcValueError (str "node at " ++ url ++
                str " is on a signet this client is not:" ++ str " its challenge derives magic " ++
                hexText magic ++ str "," ++ str " where " ++ hexText expected ++
                str " was expected"))
            else .ok ()
        | _ => .error (.fetchError (where_ ++ str ": no string" ++
            str " signet_challenge in the reply of a node on signet"))
  | _ => .error (.fetchError (where_ ++ str ": no string" ++ str " chain in the " ++
      result.typeName ++ str " result"))

/-- What `assert_chain` decides of a reply: `_expected_magic`, then `_assert_chain_info`. -/
def chainDecision (py : Interpreter) (hexError : Str → Str) (where_ url chain : Str)
    (signetChallenge : Option Challenge) (result : Json) : Except Exc Unit := do
  let expected ← expectedMagic hexError chain signetChallenge
  assertChainInfo py hexError where_ url result chain expected

/-- `assert_chain` of either client; `ask` is the one request it makes. -/
def assertChain {World : Type} (py : Interpreter) (hexError : Str → Str)
    (ask : World → Except Exc Json × World) (where_ url chain : Str)
    (signetChallenge : Option Challenge) (world : World) : Except Exc Unit × World :=
  match expectedMagic hexError chain signetChallenge with
  | .error e => (.error e, world)
  | .ok expected =>
    match ask world with
    | (.error e, later) => (.error e, later)
    | (.ok result, later) =>
      (assertChainInfo py hexError where_ url result chain expected, later)

/-- `BitcoinCoreRpcClient.assert_chain`; `call` is `self.call("getblockchaininfo")`. -/
def rpcAssertChain {World : Type} (py : Interpreter) (hexError : Str → Str)
    (call : World → Except Exc Json × World) (url : Str) :=
  assertChain py hexError call (str "getblockchaininfo at " ++ url) url

/-- `BitcoinCoreRestClient.assert_chain`; `getJson` is `self.get_json("/chaininfo.json")`. -/
def restAssertChain {World : Type} (py : Interpreter) (hexError : Str → Str)
    (getJson : World → Except Exc Json × World) (url : Str) :=
  assertChain py hexError getJson (str "GET /chaininfo.json at " ++ url) url

/-- The challenge of the default signet derives the magic the table has for it. -/
example : magicFromSignetChallenge id (.hex (str
    "512103ad5e0edad18cb1f0fc0d28a3d4f1f3e445640337489abb10404f2d1e086be430210359ef5021964fe22d6f8e05b2463c9540ce96883fe3b278760f048f5189f2e6c452ae")) =
    magicFromChain (str "signet") := by
  decide +kernel

/-! ### What a challenge spells -/

/-- The bytes a challenge spells. -/
def Challenge.bytes : Challenge → Option Bytes
  | .hex text => fromHex text
  | .script octets => some octets

/-- The magic a script derives. -/
def Derives (script magic : Bytes) : Prop :=
  ∃ octets, serialized script = .ok octets ∧ magic = (Sha256.sha256 (Sha256.sha256 octets)).take 4

/-- The magic a caller means by signet: its challenge's, or the default signet's. -/
def Means (signetChallenge : Option Challenge) (magic : Bytes) : Prop :=
  match signetChallenge with
  | none => magicFromChain (str "signet") = .ok magic
  | some challenge => ∃ script, challenge.bytes = some script ∧ Derives script magic

/-- A letter of the alphabet in lower case. -/
def lowered (code : Nat) : Nat :=
  if 0x41 ≤ code ∧ code ≤ 0x5A then code + 0x20 else code

/-- Two texts differ in the case of their letters at most. -/
def SameLetters (first second : Str) : Prop :=
  first.map lowered = second.map lowered

theorem isHexSpace_lowered (code : Nat) : isHexSpace (lowered code) = isHexSpace code := by
  unfold lowered
  split_ifs with upper
  · rw [Bool.eq_iff_iff]
    simp only [isHexSpace, Bool.or_eq_true, Bool.and_eq_true, decide_eq_true_eq, beq_iff_eq]
    omega
  · rfl

theorem isHex_lowered (code : Nat) : isHex (lowered code) = isHex code := by
  unfold lowered
  split_ifs with upper
  · rw [Bool.eq_iff_iff]
    simp only [isHex, JsonText.isDigit, Bool.or_eq_true, Bool.and_eq_true, decide_eq_true_eq]
    omega
  · rfl

theorem hexValue_lowered {code : Nat} (hex : isHex code = true) :
    hexValue (lowered code) = hexValue code := by
  simp only [isHex, JsonText.isDigit, Bool.or_eq_true, Bool.and_eq_true, decide_eq_true_eq] at hex
  unfold lowered hexValue
  split_ifs <;> omega

theorem fromHex_lowered (text : Str) : fromHex (text.map lowered) = fromHex text := by
  induction text using fromHex.induct with
  | case1 => rfl
  | case2 code _ | case3 code _ =>
    simp only [List.map_cons, List.map_nil, fromHex, isHexSpace_lowered]
  | case4 high low rest space inductionHypothesis =>
    simp only [List.map_cons] at inductionHypothesis ⊢
    rw [fromHex, fromHex, isHexSpace_lowered, if_pos space, if_pos space, inductionHypothesis]
  | case5 high low rest solid digits inductionHypothesis =>
    obtain ⟨highHex, lowHex⟩ := Bool.and_eq_true_iff.mp digits
    simp only [List.map_cons]
    rw [fromHex, fromHex, isHexSpace_lowered, if_neg solid, if_neg solid, isHex_lowered,
      isHex_lowered, if_pos digits, if_pos digits, hexValue_lowered highHex,
      hexValue_lowered lowHex, inductionHypothesis]
  | case6 high low rest solid other =>
    simp only [List.map_cons]
    rw [fromHex, fromHex, isHexSpace_lowered, if_neg solid, if_neg solid, isHex_lowered,
      isHex_lowered, if_neg other, if_neg other]

/-- What a text spells in hex does not depend on the case of its letters. -/
theorem SameLetters.fromHex_eq {first second : Str} (same : SameLetters first second) :
    fromHex first = fromHex second := by
  rw [← fromHex_lowered first, same, fromHex_lowered]

theorem length_fromHex {text : Str} {script : Bytes} (spelled : fromHex text = some script) :
    script.length ≤ text.length := by
  induction text using fromHex.induct generalizing script with
  | case1 =>
    obtain rfl := Option.some.inj spelled
    exact le_rfl
  | case2 code space =>
    rw [fromHex, if_pos space] at spelled
    obtain rfl := Option.some.inj spelled
    exact Nat.zero_le _
  | case3 code solid =>
    rw [fromHex, if_neg solid] at spelled
    cases spelled
  | case4 high low rest space inductionHypothesis =>
    rw [fromHex, if_pos space] at spelled
    exact (inductionHypothesis spelled).trans (Nat.le_succ _)
  | case5 high low rest solid digits inductionHypothesis =>
    rw [fromHex, if_neg solid, if_pos digits] at spelled
    obtain ⟨octets, later, rfl⟩ := Option.map_eq_some_iff.mp spelled
    exact Nat.succ_le_succ ((inductionHypothesis later).trans (Nat.le_succ _))
  | case6 high low rest solid other =>
    rw [fromHex, if_neg solid, if_neg other] at spelled
    cases spelled

theorem scriptMagic_eq_ok {script magic : Bytes} :
    scriptMagic script = .ok magic ↔ Derives script magic := by
  constructor
  · intro derived
    obtain ⟨octets, wrote, rfl⟩ := map_eq_ok derived
    exact ⟨octets, wrote, rfl⟩
  · rintro ⟨octets, wrote, rfl⟩
    rw [scriptMagic, wrote]
    rfl

/-- A script that is no longer than a Python `bytes` may be has a magic. -/
theorem exists_derives {script : Bytes} (short : script.length < 2 ^ 63) :
    ∃ magic, Derives script magic := by
  obtain ⟨coded, coding⟩ := exists_compactSize (short.trans (by decide))
  exact ⟨_, coded ++ script, by rw [serialized, coding]; rfl, rfl⟩

theorem Derives.unique {script first second : Bytes} (one : Derives script first)
    (two : Derives script second) : first = second := by
  obtain ⟨octets, wrote, rfl⟩ := one
  obtain ⟨octets', wrote', rfl⟩ := two
  rw [wrote] at wrote'
  rw [Except.ok.inj wrote']

theorem Means.unique {signetChallenge : Option Challenge} {first second : Bytes}
    (one : Means signetChallenge first) (two : Means signetChallenge second) : first = second := by
  cases signetChallenge with
  | none => exact Except.ok.inj (Eq.trans (Eq.symm one) two)
  | some challenge =>
    obtain ⟨script, spelled, derives⟩ := one
    obtain ⟨script', spelled', derives'⟩ := two
    obtain rfl := Option.some.inj (spelled.symm.trans spelled')
    exact derives.unique derives'

/-! ### What the caller asks -/

section Asking

variable {hexError : Str → Str} {chain : Str} {signetChallenge : Option Challenge}

/-- A challenge for a chain that is no signet, or one that spells nothing. -/
def Misasked (chain : Str) (signetChallenge : Option Challenge) : Prop :=
  ∃ challenge, signetChallenge = some challenge ∧ (chain ≠ str "signet" ∨ challenge.bytes = none)

theorem magicFromSignetChallenge_bytes (hexError : Str → Str) (challenge : Challenge) :
    (challenge.bytes = none ∧
        ∃ message, magicFromSignetChallenge hexError challenge = .error (.btcRpcValueError message)) ∨
      ∃ script, challenge.bytes = some script ∧
        magicFromSignetChallenge hexError challenge = scriptMagic script := by
  cases challenge with
  | hex text =>
    simp only [Challenge.bytes, magicFromSignetChallenge]
    cases fromHex text with
    | none => exact .inl ⟨rfl, _, rfl⟩
    | some script => exact .inr ⟨script, rfl, rfl⟩
  | script octets => exact .inr ⟨octets, rfl, rfl⟩

theorem magicFromSignetChallenge_eq_ok {challenge : Challenge} {magic : Bytes} :
    magicFromSignetChallenge hexError challenge = .ok magic ↔
      ∃ script, challenge.bytes = some script ∧ Derives script magic := by
  rcases magicFromSignetChallenge_bytes hexError challenge with
    ⟨unspelled, message, refused⟩ | ⟨script, spelled, derived⟩
  · simp [refused, unspelled]
  · simp [derived, spelled, scriptMagic_eq_ok]

/-- What is asked without a mistake expects no magic off signet, and on it the one meant. -/
theorem expectedMagic_eq_ok {expected : Option Bytes} :
    expectedMagic hexError chain signetChallenge = .ok expected ↔
      ¬ Misasked chain signetChallenge ∧
        (chain ≠ str "signet" ∧ expected = none ∨
          chain = str "signet" ∧ ∃ magic, expected = some magic ∧ Means signetChallenge magic) := by
  have map_some {outcome : Except Exc Bytes} :
      outcome.map some = .ok expected ↔ ∃ magic, expected = some magic ∧ outcome = .ok magic := by
    cases outcome <;> simp [Except.map, eq_comm]
  cases signetChallenge with
  | none =>
    have proper : ¬ Misasked chain none := fun ⟨_, present, _⟩ => by cases present
    by_cases signet : chain = str "signet"
    · subst signet
      rw [expectedMagic, if_pos rfl, map_some]
      simp only [proper, not_false_eq_true, ne_eq, not_true_eq_false, false_and, true_and, false_or,
        Means]
    · simp [expectedMagic, signet, proper, eq_comm]
  | some challenge =>
    by_cases signet : chain = str "signet"
    · have misasked : Misasked chain (some challenge) ↔ challenge.bytes = none := by
        simp [Misasked, signet]
      rw [expectedMagic, if_neg (not_not.mpr signet), map_some, misasked]
      simp only [magicFromSignetChallenge_eq_ok, signet, Means, ne_eq, not_true_eq_false, false_and,
        true_and, false_or]
      constructor
      · rintro ⟨magic, rfl, script, spelled, derives⟩
        exact ⟨by rw [spelled]; exact Option.some_ne_none script, magic, rfl, script, spelled, derives⟩
      · rintro ⟨_, magic, rfl, meant⟩
        exact ⟨magic, rfl, meant⟩
    · have misasked : Misasked chain (some challenge) := ⟨challenge, rfl, .inl signet⟩
      simp [expectedMagic, signet, misasked]

theorem expectedMagic_of_misasked (hexError : Str → Str)
    (misasked : Misasked chain signetChallenge) :
    ∃ message, expectedMagic hexError chain signetChallenge = .error (.btcRpcValueError message) := by
  obtain ⟨challenge, rfl, mistake⟩ := misasked
  rw [expectedMagic]
  by_cases signet : chain = str "signet"
  · rcases magicFromSignetChallenge_bytes hexError challenge with
      ⟨_, message, refused⟩ | ⟨script, spelled, _⟩
    · rw [if_neg (not_not.mpr signet), refused]
      exact ⟨message, rfl⟩
    · rcases mistake with off | unspelled
      · exact absurd signet off
      · rw [spelled] at unspelled
        cases unspelled
  · rw [if_pos signet]
    exact ⟨_, rfl⟩

end Asking

/-! ### What the node answers -/

section Answering

variable {py : Interpreter} {hexError : Str → Str} {where_ url chain : Str} {result : Json}

/-- A reply with nothing to compare: no string `chain`, or on signet no challenge in hex. -/
def Incomparable (chain : Str) (result : Json) : Prop :=
  (∀ reported, (info result).get (str "chain") ≠ .string reported) ∨
    (info result).get (str "chain") = .string chain ∧ chain = str "signet" ∧
      ∀ text, (info result).get (str "signet_challenge") = .string text → fromHex text = none

/-- A node on the chain asked for, and on the signet meant where that is signet. -/
def Serves (chain : Str) (signetChallenge : Option Challenge) (result : Json) : Prop :=
  ∃ members, result = .object members ∧ Dict.get members (str "chain") = .string chain ∧
    (chain = str "signet" → ∃ text script magic,
      Dict.get members (str "signet_challenge") = .string text ∧ fromHex text = some script ∧
        Derives script magic ∧ Means signetChallenge magic)

theorem info_get_string {name reported : Str} (found : (info result).get name = .string reported) :
    ∃ members, result = .object members := by
  cases result with
  | object members => exact ⟨members, rfl⟩
  | _ => cases found

/-- What comparing a reply with a magic meets, and answers there. -/
inductive Compared (chain : Str) (expected : Option Bytes) (result : Json) :
    Except Exc Unit → Prop
  | unnamed (message : Str)
      (unread : ∀ reported, (info result).get (str "chain") ≠ .string reported) :
      Compared chain expected result (.error (.fetchError message))
  | misnamed {reported : Str} (message : Str)
      (named : (info result).get (str "chain") = .string reported) (differs : reported ≠ chain) :
      Compared chain expected result (.error (.btcRpcValueError message))
  | named (agrees : (info result).get (str "chain") = .string chain) (off : expected = none) :
      Compared chain expected result (.ok ())
  | unspelled {magic : Bytes} (message : Str)
      (agrees : (info result).get (str "chain") = .string chain) (on : expected = some magic)
      (unread : ∀ text, (info result).get (str "signet_challenge") = .string text →
        fromHex text = none) :
      Compared chain expected result (.error (.fetchError message))
  | same {magic : Bytes} {text : Str} {script : Bytes}
      (agrees : (info result).get (str "chain") = .string chain) (on : expected = some magic)
      (challenge : (info result).get (str "signet_challenge") = .string text)
      (spelled : fromHex text = some script) (derives : Derives script magic) :
      Compared chain expected result (.ok ())
  | another {magic other : Bytes} {text : Str} {script : Bytes} (message : Str)
      (agrees : (info result).get (str "chain") = .string chain) (on : expected = some magic)
      (challenge : (info result).get (str "signet_challenge") = .string text)
      (spelled : fromHex text = some script) (derives : Derives script other)
      (differs : other ≠ magic) :
      Compared chain expected result (.error (.btcRpcValueError message))
  | long {magic : Bytes} {text : Str} {script : Bytes} (e : Exc)
      (agrees : (info result).get (str "chain") = .string chain) (on : expected = some magic)
      (challenge : (info result).get (str "signet_challenge") = .string text)
      (spelled : fromHex text = some script) (underived : ∀ other, ¬ Derives script other) :
      Compared chain expected result (.error e)

theorem assertChainInfo_compared (py : Interpreter) (hexError : Str → Str) (where_ url chain : Str)
    (result : Json) (expected : Option Bytes) :
    Compared chain expected result
      (assertChainInfo py hexError where_ url result chain expected) := by
  unfold assertChainInfo
  rcases reading : (info result).get (str "chain") with _ | _ | _ | _ | reported | _ | _
  case string =>
    by_cases agrees : reported = chain
    · subst agrees
      simp only [ne_eq, not_true_eq_false, if_false]
      cases expected with
      | none => exact .named reading rfl
      | some magic =>
        rcases challenge : (info result).get (str "signet_challenge") with
          _ | _ | _ | _ | text | _ | _
        case string =>
          rcases magicFromSignetChallenge_bytes hexError (.hex text) with
            ⟨unspelled, message, refused⟩ | ⟨script, spelled, derived⟩
          · simp only [refused]
            refine .unspelled _ reading rfl fun other also => ?_
            obtain rfl := Json.string.inj (challenge.symm.trans also)
            exact unspelled
          · simp only [derived]
            rcases made : scriptMagic script with e | other
            · have underived : ∀ other, ¬ Derives script other := fun other derives => by
                rw [scriptMagic_eq_ok.mpr derives] at made
                cases made
              dsimp only
              split_ifs
              · exact .long _ reading rfl challenge spelled underived
              · exact .long _ reading rfl challenge spelled underived
            · have derives := scriptMagic_eq_ok.mp made
              by_cases same : other = magic
              · subst same
                simp only [not_true_eq_false, if_false]
                exact .same reading rfl challenge spelled derives
              · simp only [same, not_false_eq_true, if_true]
                exact .another _ reading rfl challenge spelled derives same
        all_goals exact .unspelled _ reading rfl (by rw [challenge]; rintro _ ⟨⟩)
    · simp only [ne_eq, agrees, not_false_eq_true, if_true]
      exact .misnamed _ reading agrees
  all_goals exact .unnamed _ (by rw [reading]; rintro _ ⟨⟩)

theorem assertChainInfo_eq_ok {expected : Option Bytes} :
    assertChainInfo py hexError where_ url result chain expected = .ok () ↔
      (info result).get (str "chain") = .string chain ∧ ∀ magic, expected = some magic →
        ∃ text script, (info result).get (str "signet_challenge") = .string text ∧
          fromHex text = some script ∧ Derives script magic := by
  have compared := assertChainInfo_compared py hexError where_ url chain result expected
  constructor
  · intro returned
    rw [returned] at compared
    cases compared with
    | named agrees off =>
      refine ⟨agrees, fun magic on => ?_⟩
      rw [off] at on
      cases on
    | same agrees on challenge spelled derives =>
      refine ⟨agrees, fun magic also => ?_⟩
      obtain rfl := Option.some.inj (on.symm.trans also)
      exact ⟨_, _, challenge, spelled, derives⟩
  · rintro ⟨agrees, reports⟩
    generalize assertChainInfo py hexError where_ url result chain expected = outcome at compared
    cases compared with
    | named | same => rfl
    | unnamed _ unread => exact absurd agrees (unread chain)
    | misnamed _ named differs => exact absurd (Json.string.inj (named.symm.trans agrees)) differs
    | unspelled _ _ on unread =>
      obtain ⟨text, script, challenge, spelled, _⟩ := reports _ on
      rw [unread text challenge] at spelled
      cases spelled
    | another _ _ on challenge spelled derives differs =>
      obtain ⟨text, script, challenge', spelled', derives'⟩ := reports _ on
      obtain rfl := Json.string.inj (challenge.symm.trans challenge')
      obtain rfl := Option.some.inj (spelled.symm.trans spelled')
      exact absurd (derives.unique derives') differs
    | long _ _ on challenge spelled underived =>
      obtain ⟨text, script, challenge', spelled', derives'⟩ := reports _ on
      obtain rfl := Json.string.inj (challenge.symm.trans challenge')
      obtain rfl := Option.some.inj (spelled.symm.trans spelled')
      exact absurd derives' (underived _)

/-- A node is accepted when it is on the chain asked for. -/
theorem chainDecision_eq_ok {signetChallenge : Option Challenge} :
    chainDecision py hexError where_ url chain signetChallenge result = .ok () ↔
      ¬ Misasked chain signetChallenge ∧ Serves chain signetChallenge result := by
  constructor
  · intro returned
    obtain ⟨expected, asked, accepted⟩ := bind_eq_ok returned
    obtain ⟨proper, meant⟩ := expectedMagic_eq_ok.mp asked
    obtain ⟨agrees, reports⟩ := assertChainInfo_eq_ok.mp accepted
    obtain ⟨members, rfl⟩ := info_get_string agrees
    refine ⟨proper, members, rfl, agrees, fun signet => ?_⟩
    rcases meant with ⟨off, _⟩ | ⟨_, magic, rfl, means⟩
    · exact absurd signet off
    · obtain ⟨text, script, challenge, spelled, derives⟩ := reports magic rfl
      exact ⟨text, script, magic, challenge, spelled, derives, means⟩
  · rintro ⟨proper, members, rfl, agrees, reports⟩
    by_cases signet : chain = str "signet"
    · obtain ⟨text, script, magic, challenge, spelled, derives, means⟩ := reports signet
      have asked : expectedMagic hexError chain signetChallenge = .ok (some magic) :=
        expectedMagic_eq_ok.mpr ⟨proper, .inr ⟨signet, magic, rfl, means⟩⟩
      rw [chainDecision, asked]
      change assertChainInfo py hexError where_ url (.object members) chain (some magic) = .ok ()
      refine assertChainInfo_eq_ok.mpr ⟨agrees, ?_⟩
      rintro _ ⟨⟩
      exact ⟨text, script, challenge, spelled, derives⟩
    · have asked : expectedMagic hexError chain signetChallenge = .ok none :=
        expectedMagic_eq_ok.mpr ⟨proper, .inl ⟨signet, rfl⟩⟩
      rw [chainDecision, asked]
      change assertChainInfo py hexError where_ url (.object members) chain none = .ok ()
      refine assertChainInfo_eq_ok.mpr ⟨agrees, ?_⟩
      rintro _ ⟨⟩

/-- No challenge is longer than a Python string or `bytes` may be. -/
def Holdable (signetChallenge : Option Challenge) (result : Json) : Prop :=
  (∀ challenge script, signetChallenge = some challenge → challenge.bytes = some script →
    script.length < 2 ^ 63) ∧
    ∀ text, (info result).get (str "signet_challenge") = .string text → text.length < 2 ^ 63

theorem exists_expected (hexError : Str → Str) {signetChallenge : Option Challenge}
    (proper : ¬ Misasked chain signetChallenge) (holdable : Holdable signetChallenge result) :
    ∃ expected, expectedMagic hexError chain signetChallenge = .ok expected ∧
      (expected = none ↔ chain ≠ str "signet") := by
  by_cases signet : chain = str "signet"
  · have meant : ∃ magic, Means signetChallenge magic := by
      cases signetChallenge with
      | none => exact ⟨_, rfl⟩
      | some challenge =>
        cases spelled : challenge.bytes with
        | none => exact absurd ⟨challenge, rfl, .inr spelled⟩ proper
        | some script =>
          obtain ⟨magic, derives⟩ := exists_derives (holdable.1 challenge script rfl spelled)
          exact ⟨magic, script, spelled, derives⟩
    obtain ⟨magic, means⟩ := meant
    exact ⟨some magic, expectedMagic_eq_ok.mpr ⟨proper, .inr ⟨signet, magic, rfl, means⟩⟩,
      by simp [signet]⟩
  · exact ⟨none, expectedMagic_eq_ok.mpr ⟨proper, .inl ⟨signet, rfl⟩⟩, by simp [signet]⟩

theorem not_incomparable (agrees : (info result).get (str "chain") = .string chain)
    (reads : chain = str "signet" → ∃ text script,
      (info result).get (str "signet_challenge") = .string text ∧ fromHex text = some script) :
    ¬ Incomparable chain result := by
  rintro (unread | ⟨_, signet, unread⟩)
  · exact unread chain agrees
  · obtain ⟨text, script, challenge, spelled⟩ := reads signet
    rw [unread text challenge] at spelled
    cases spelled

/-- A node that is not accepted gave nothing to compare, or disagrees. -/
theorem chainDecision_refused {signetChallenge : Option Challenge}
    (proper : ¬ Misasked chain signetChallenge) (holdable : Holdable signetChallenge result) :
    (Incomparable chain result →
      ∃ message, chainDecision py hexError where_ url chain signetChallenge result =
        .error (.fetchError message)) ∧
    (¬ Incomparable chain result → ¬ Serves chain signetChallenge result →
      ∃ message, chainDecision py hexError where_ url chain signetChallenge result =
        .error (.btcRpcValueError message)) := by
  obtain ⟨expected, asked, off⟩ := exists_expected hexError proper holdable
  have decided : chainDecision py hexError where_ url chain signetChallenge result =
      assertChainInfo py hexError where_ url result chain expected := by
    rw [chainDecision, asked]
    rfl
  have accepted := @chainDecision_eq_ok py hexError where_ url chain result signetChallenge
  rw [decided] at accepted ⊢
  have compared := assertChainInfo_compared py hexError where_ url chain result expected
  have on_signet {magic : Bytes} (on : expected = some magic) : chain = str "signet" := by
    by_contra other
    rw [off.mpr other] at on
    cases on
  generalize assertChainInfo py hexError where_ url result chain expected = outcome
    at compared accepted ⊢
  constructor
  · intro incomparable
    cases compared with
    | unnamed message | unspelled message => exact ⟨message, rfl⟩
    | misnamed _ named differs =>
      rcases incomparable with unread | ⟨agrees, _⟩
      · exact absurd named (unread _)
      · exact absurd (Json.string.inj (named.symm.trans agrees)) differs
    | named agrees nothing =>
      exact absurd incomparable (not_incomparable agrees fun signet => absurd signet (off.mp nothing))
    | same agrees _ challenge spelled | another _ agrees _ challenge spelled
    | long _ agrees _ challenge spelled =>
      exact absurd incomparable (not_incomparable agrees fun _ => ⟨_, _, challenge, spelled⟩)
  · intro comparable refused
    cases compared with
    | misnamed message | another message => exact ⟨message, rfl⟩
    | unnamed _ unread => exact absurd (.inl unread) comparable
    | named | same => exact absurd (accepted.mp rfl).2 refused
    | unspelled _ agrees on unread =>
      exact absurd (.inr ⟨agrees, on_signet on, unread⟩) comparable
    | long _ _ _ challenge spelled underived =>
      obtain ⟨magic, derives⟩ :=
        exists_derives ((length_fromHex spelled).trans_lt (holdable.2 _ challenge))
      exact absurd derives (underived magic)

end Answering

/-! ### What is spelled otherwise -/

section Spelling

variable {py : Interpreter} {hexError : Str → Str} {where_ url chain : Str}

/-- The same challenge with the letters of its hex in another case, or as the bytes it spells. -/
inductive Respelled : Option Challenge → Option Challenge → Prop
  | same (signetChallenge : Option Challenge) : Respelled signetChallenge signetChallenge
  | cased {text other : Str} (same : SameLetters text other) :
      Respelled (some (.hex text)) (some (.hex other))
  | bytes {text : Str} {script : Bytes} (spelled : fromHex text = some script) :
      Respelled (some (.hex text)) (some (.script script))

/-- The same reply with the letters of its challenge in another case. -/
inductive Recased : Json → Json → Prop
  | same (result : Json) : Recased result result
  | cased {members : Dict} {text other : Str}
      (challenge : members.get (str "signet_challenge") = .string text)
      (same : SameLetters text other) :
      Recased (.object members) (.object (members.set (str "signet_challenge") (.string other)))

theorem Dict.get_set (members : Dict) (name other : Str) (value : Json) :
    (members.set name value).get other = if other = name then value else members.get other := by
  rw [Dict.get, Dict.lookup_set]
  split_ifs <;> rfl

theorem alike_map {α β : Type} {first second : Except Exc α} (alike : Alike first second)
    (f : α → β) : Alike (first.map f) (second.map f) := by
  cases first with
  | ok value => rw [alike_ok alike, Alike]
  | error e =>
    cases second with
    | ok value => cases alike
    | error e' => exact congrArg Except.error (Except.error.inj alike)

theorem alike_bind {α β : Type} {first second : Except Exc α} {f g : α → Except Exc β}
    (alike : Alike first second) (each : ∀ value, Alike (f value) (g value)) :
    Alike (first >>= f) (second >>= g) := by
  cases first with
  | ok value =>
    rw [alike_ok alike]
    exact each value
  | error e =>
    cases second with
    | ok value => cases alike
    | error e' => exact congrArg Except.error (Except.error.inj alike)

/-- The magic of a challenge is that of the bytes it spells. -/
theorem magicFromSignetChallenge_alike {first second : Challenge} (same : first.bytes = second.bytes) :
    Alike (magicFromSignetChallenge hexError first) (magicFromSignetChallenge hexError second) := by
  rcases magicFromSignetChallenge_bytes hexError first with
    ⟨unspelled, message, refused⟩ | ⟨script, spelled, derived⟩
  · rcases magicFromSignetChallenge_bytes hexError second with
      ⟨_, message', refused'⟩ | ⟨script', spelled', _⟩
    · rw [refused, refused']
      rfl
    · rw [same, spelled'] at unspelled
      cases unspelled
  · rcases magicFromSignetChallenge_bytes hexError second with
      ⟨unspelled', _⟩ | ⟨script', spelled', derived'⟩
    · rw [same, unspelled'] at spelled
      cases spelled
    · rw [same, spelled'] at spelled
      rw [derived, derived', Option.some.inj spelled]
      rfl

theorem expectedMagic_alike {first second : Option Challenge} (respelled : Respelled first second) :
    Alike (expectedMagic hexError chain first) (expectedMagic hexError chain second) := by
  have of_bytes {one two : Challenge} (same : one.bytes = two.bytes) :
      Alike (expectedMagic hexError chain (some one)) (expectedMagic hexError chain (some two)) := by
    unfold expectedMagic
    dsimp only
    split_ifs
    · exact alike_refl _
    · exact alike_map (magicFromSignetChallenge_alike same) some
  cases respelled with
  | same => exact alike_refl _
  | cased same => exact of_bytes same.fromHex_eq
  | bytes spelled => exact of_bytes spelled

theorem assertChainInfo_alike {result other : Json} (recased : Recased result other)
    (expected : Option Bytes) :
    Alike (assertChainInfo py hexError where_ url result chain expected)
      (assertChainInfo py hexError where_ url other chain expected) := by
  cases recased with
  | same => exact alike_refl _
  | @cased members text other challenge same =>
    have name : (members.set (str "signet_challenge") (.string other)).get (str "chain") =
        members.get (str "chain") := by
      rw [Dict.get_set, if_neg (by decide)]
    have reset : (members.set (str "signet_challenge") (.string other)).get
        (str "signet_challenge") = .string other := by
      rw [Dict.get_set, if_pos rfl]
    simp only [assertChainInfo, info, name, reset, challenge]
    cases members.get (str "chain") with
    | string reported =>
      dsimp only
      split_ifs
      · exact alike_refl _
      cases expected with
      | none => exact alike_refl _
      | some magic =>
        dsimp only
        have bytes : (Challenge.hex text).bytes = (Challenge.hex other).bytes := same.fromHex_eq
        rcases magicFromSignetChallenge_bytes hexError (.hex text) with
          ⟨unspelled, message, refused⟩ | ⟨script, spelled, derived⟩
        all_goals
          rcases magicFromSignetChallenge_bytes hexError (.hex other) with
            ⟨unspelled', message', refused'⟩ | ⟨script', spelled', derived'⟩
        · rw [refused, refused']
          rfl
        · rw [bytes, spelled'] at unspelled
          cases unspelled
        · rw [bytes, unspelled'] at spelled
          cases spelled
        · rw [bytes, spelled'] at spelled
          rw [derived, derived', Option.some.inj spelled]
          exact alike_refl _
    | _ => exact alike_refl _

end Spelling

/-- A check returns exactly when the node is on the chain asked for. A challenge the caller should
not have passed is refused with no request made, and otherwise the reply decides: one with nothing
to compare is a `FetchError`, and one that disagrees a `BtcRpcValueError`. How a challenge is
spelled makes no difference. -/
theorem assertChain_exact (py : Interpreter) (hexError : Str → Str) (where_ url chain : Str)
    (signetChallenge : Option Challenge) (result : Json) :
    (chainDecision py hexError where_ url chain signetChallenge result = .ok () ↔
      ¬ Misasked chain signetChallenge ∧ Serves chain signetChallenge result) ∧
    (Misasked chain signetChallenge → ∃ message,
      ∀ (World : Type) (ask : World → Except Exc Json × World) (world : World),
        assertChain py hexError ask where_ url chain signetChallenge world =
          (.error (.btcRpcValueError message), world)) ∧
    (¬ Misasked chain signetChallenge → Holdable signetChallenge result →
      (∀ (World : Type) (ask : World → Except Exc Json × World) (world later : World),
        ask world = (.ok result, later) →
        assertChain py hexError ask where_ url chain signetChallenge world =
          (chainDecision py hexError where_ url chain signetChallenge result, later)) ∧
      (Incomparable chain result → ∃ message,
        chainDecision py hexError where_ url chain signetChallenge result =
          .error (.fetchError message)) ∧
      (¬ Incomparable chain result → ¬ Serves chain signetChallenge result → ∃ message,
        chainDecision py hexError where_ url chain signetChallenge result =
          .error (.btcRpcValueError message))) ∧
    ∀ respelled recased, Respelled signetChallenge respelled → Recased result recased →
      Alike (chainDecision py hexError where_ url chain signetChallenge result)
        (chainDecision py hexError where_ url chain respelled recased) := by
  refine ⟨chainDecision_eq_ok, fun misasked => ?_, fun proper holdable => ⟨?_, ?_⟩,
    fun respelled recased same cased => ?_⟩
  · obtain ⟨message, refused⟩ := expectedMagic_of_misasked hexError misasked
    refine ⟨message, fun World ask world => ?_⟩
    rw [assertChain, refused]
  · intro World ask world later asked
    obtain ⟨expected, meant, _⟩ := exists_expected hexError proper holdable
    simp only [assertChain, chainDecision, meant, asked]
    rfl
  · exact chainDecision_refused proper holdable
  · exact alike_bind (expectedMagic_alike same) (assertChainInfo_alike cased)

/-- What a node on the signet of the script `51` reports, the script in its own letters. -/
def signetResult : Json :=
  .object [(str "chain", .string (str "signet")), (str "signet_challenge", .string (str "51"))]

theorem signetResult_decided :
    chainDecision cpython id [] [] (str "signet") (some (.script [0x51])) signetResult = .ok () := by
  decide +kernel

/-- A node on the caller's own signet is accepted, no reply at all is told from one, and a challenge
for main is refused. -/
theorem assertChain_exact_signet :
    (Serves (str "signet") (some (.script [0x51])) signetResult ∧
      ∀ (World : Type) (ask : World → Except Exc Json × World) (world later : World),
        ask world = (.ok signetResult, later) →
        assertChain cpython id ask [] [] (str "signet") (some (.script [0x51])) world =
          (.ok (), later)) ∧
    (∃ message, chainDecision cpython id [] [] (str "main") none .null =
      .error (.fetchError message)) ∧
    ∃ message, ∀ (World : Type) (ask : World → Except Exc Json × World) (world : World),
      assertChain cpython id ask [] [] (str "main") (some (.script [])) world =
        (.error (.btcRpcValueError message), world) := by
  obtain ⟨accepts, _, asks, _⟩ :=
    assertChain_exact cpython id [] [] (str "signet") (some (.script [0x51])) signetResult
  obtain ⟨proper, serves⟩ := accepts.mp signetResult_decided
  have holdable : Holdable (some (.script [0x51])) signetResult := by
    refine ⟨?_, ?_⟩
    · rintro _ _ ⟨⟩ ⟨⟩
      decide
    · rintro _ ⟨⟩
      decide
  refine ⟨⟨serves, fun World ask world later asked => ?_⟩, ?_, ?_⟩
  · rw [(asks proper holdable).1 World ask world later asked, signetResult_decided]
  · exact ((assertChain_exact cpython id [] [] (str "main") none .null).2.2.1 (by rintro ⟨_, ⟨⟩, _⟩)
      ⟨by rintro _ _ ⟨⟩, by rintro _ ⟨⟩⟩).2.1 (.inl (by rintro _ ⟨⟩))
  · exact (assertChain_exact cpython id [] [] (str "main") (some (.script [])) .null).2.1
      ⟨.script [], rfl, .inl (by decide)⟩

end BitcoinCoreRpc
