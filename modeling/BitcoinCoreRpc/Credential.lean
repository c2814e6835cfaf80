/-
This file proves that the header of a call tells the node the credential the client was
built with, or the line of the cookie file, and nothing else.

A node reads the header as RFC 7617 has it: it decodes the base64 behind the scheme and
splits what it finds at the first colon. The client refuses a user with a colon in it, so
what is split off is the user and what is left is the password, whatever either holds; and
two clients that send one header were given one user and one password.
-/

import BitcoinCoreRpc.Call

namespace BitcoinCoreRpc

/-! ### Base64 -/

/-- The value of a digit of base64. -/
def base64Value (code : Nat) : Option Nat :=
  if 0x41 ≤ code ∧ code ≤ 0x5A then some (code - 0x41)
  else if 0x61 ≤ code ∧ code ≤ 0x7A then some (code - 0x61 + 26)
  else if 0x30 ≤ code ∧ code ≤ 0x39 then some (code - 0x30 + 52)
  else if code = 0x2B then some 62
  else if code = 0x2F then some 63
  else none

/-- The octets a text of base64 stands for: groups of four digits, the last of them padded, and no
bit set that the padding stands for. -/
def b64decode : Str → Option Bytes
  | [] => some []
  | first :: second :: third :: fourth :: rest => do
    let high ← base64Value first
    let next ← base64Value second
    let octet := high * 4 + next / 16
    if third = 0x3D then
      if fourth = 0x3D ∧ rest = [] ∧ next % 16 = 0 then some [octet] else none
    else
      let middle ← base64Value third
      let octet' := next % 16 * 16 + middle / 4
      if fourth = 0x3D then
        if rest = [] ∧ middle % 4 = 0 then some [octet, octet'] else none
      else
        let low ← base64Value fourth
        let others ← b64decode rest
        some (octet :: octet' :: (middle % 4 * 64 + low) :: others)
  | _ => none

theorem base64Value_digit {value : Nat} (small : value < 64) :
    base64Value (base64Digit value) = some value := by
  unfold base64Digit base64Value
  split_ifs <;> first | omega | (congr 1; omega)

theorem base64Digit_ne_pad {value : Nat} (small : value < 64) : base64Digit value ≠ 0x3D := by
  unfold base64Digit
  split_ifs <;> omega

/-- What was encoded is decoded, to its last octet. -/
theorem b64decode_b64encode {octets : Bytes} (small : ∀ octet ∈ octets, octet < 256) :
    b64decode (b64encode octets) = some octets := by
  induction octets using b64encode.induct with
  | case1 => rfl
  | case2 first =>
    have bound := small first List.mem_cons_self
    rw [b64encode, b64decode, base64Value_digit (by omega), base64Value_digit (by omega)]
    simp
    omega
  | case3 first second =>
    have bound := small first List.mem_cons_self
    have bound' := small second (List.mem_cons_of_mem _ List.mem_cons_self)
    rw [b64encode, b64decode, base64Value_digit (by omega), base64Value_digit (by omega),
      base64Value_digit (by omega)]
    simp [base64Digit_ne_pad (show second % 16 * 4 < 64 by omega)]
    omega
  | case4 first second third rest inductionHypothesis =>
    have bound := small first List.mem_cons_self
    have bound' := small second (List.mem_cons_of_mem _ List.mem_cons_self)
    have bound'' := small third
      (List.mem_cons_of_mem _ (List.mem_cons_of_mem _ List.mem_cons_self))
    rw [b64encode, b64decode, base64Value_digit (by omega), base64Value_digit (by omega),
      base64Value_digit (by omega), base64Value_digit (by omega),
      inductionHypothesis fun octet member => small octet (by simp [member])]
    simp [base64Digit_ne_pad (show second % 16 * 4 + third / 64 < 64 by omega),
      base64Digit_ne_pad (show third % 64 < 64 by omega)]
    omega

/-! ### What a node reads of a header -/

/-- A text split at its first colon. -/
def firstColon (text : Bytes) : Option (Bytes × Bytes) :=
  match text.dropWhile (· ≠ 0x3A) with
  | [] => none
  | _ :: rest => some (text.takeWhile (· ≠ 0x3A), rest)

/-- The user and the password of an `Authorization` header, as octets. -/
def basicCredential (header : Str) : Option (Bytes × Bytes) := do
  if (str "Basic ").isPrefixOf header then firstColon (← b64decode (header.drop 6)) else none

theorem firstColon_append {front : Bytes} (rest : Bytes) (outside : 0x3A ∉ front) :
    firstColon (front ++ 0x3A :: rest) = some (front, rest) := by
  have passes : ∀ octet ∈ front, (decide (octet ≠ 0x3A)) = true := by
    intro octet member
    exact decide_eq_true fun same => outside (same ▸ member)
  rw [firstColon, List.dropWhile_append_of_pos passes, List.takeWhile_append_of_pos passes]
  simp

/-- An ASCII octet of a text that was encoded is a character of the text. -/
theorem mem_of_encode {codes : Str} {octet : Nat} (ascii : octet < 0x80)
    (member : octet ∈ Utf8.encode codes) : octet ∈ codes := by
  obtain ⟨code, among, written⟩ := List.mem_flatMap.mp member
  by_cases narrow : code < 0x80
  · rw [Utf8.encodeOne_ascii narrow] at written
    rwa [List.mem_singleton.mp written]
  · have wide := (Utf8.encodeOne_wide (not_lt.mp narrow)).2 octet written
    omega

theorem encode_inj {first second : Str} (scalar : ∀ code ∈ first, Utf8.IsScalar code)
    (scalar' : ∀ code ∈ second, Utf8.IsScalar code)
    (same : Utf8.encode first = Utf8.encode second) : first = second := by
  have decoded := Utf8.decode_eq_some_iff.mpr ⟨rfl, scalar⟩
  rw [same, Utf8.decode_eq_some_iff.mpr ⟨rfl, scalar'⟩] at decoded
  exact (Option.some.inj decoded).symm

/-- A credential is read back to its last octet, a user with no colon in it ahead. -/
theorem basicCredential_encode {name secret : Str} (outside : 0x3A ∉ name)
    (scalar : ∀ code ∈ name ++ 0x3A :: secret, Utf8.IsScalar code) :
    basicCredential (str "Basic " ++ b64encode (Utf8.encode (name ++ 0x3A :: secret))) =
      some (Utf8.encode name, Utf8.encode secret) := by
  have scheme (text : Str) : (str "Basic ").isPrefixOf (str "Basic " ++ text) = true :=
    List.isPrefixOf_iff_prefix.mpr (List.prefix_append _ _)
  have behind (text : Str) : (str "Basic " ++ text).drop 6 = text := rfl
  have colon : Utf8.encode (0x3A :: secret) = 0x3A :: Utf8.encode secret := by
    rw [Utf8.encode_cons, Utf8.encodeOne_ascii (by decide)]
    rfl
  rw [basicCredential, if_pos (scheme _), behind, b64decode_b64encode (Utf8.encode_lt scalar),
    Utf8.encode_append, colon]
  exact firstColon_append _ (outside ∘ mem_of_encode (by decide))

/-! ### Who a client says is calling -/

/-- A client built with these arguments presents a user and a password: those it was given, or the
two fields of the cookie file's line. -/
inductive Presents (user password cookiePath : Option Str) (cookie : CookieFile) (name secret : Str) :
    Prop
  | given (named : user = some name) (kept : password = some secret) (alone : cookiePath = none) :
    Presents user password cookiePath cookie name secret
  | cookie (path : Str) (named : cookiePath = some path) (alone : user = none)
    (line : cookieAuth path cookie = .ok (name ++ 0x3A :: secret)) (first : 0x3A ∉ name) :
    Presents user password cookiePath cookie name secret

/-- The line of a cookie file has a colon in it. -/
theorem cookieAuth_colon {path line : Str} {cookie : CookieFile}
    (read : cookieAuth path cookie = .ok line) : 0x3A ∈ line := by
  cases cookie with
  | regular raw =>
    rw [cookieAuth] at read
    split_ifs at read with large wide lines fields
    cases read
    simpa using fields
  | _ => cases read

/-- What is read of a cookie file does not turn on how its path is written. -/
theorem cookieAuth_path {path line : Str} {cookie : CookieFile}
    (read : cookieAuth path cookie = .ok line) (other : Str) : cookieAuth other cookie = .ok line := by
  cases cookie with
  | regular raw =>
    rw [cookieAuth] at read ⊢
    split_ifs at read ⊢
    exact read
  | _ => cases read

section Presenting

variable {flavour : Paths.Flavour} {lib : Urlparse} {url : Str} {user password cookiePath : Option Str}
  {timeout : Timeout} {transport : Transport} {client : RpcClient} {cookie : CookieFile}
  {name secret header : Str}

/-- What the constructor accepts says who is calling in one way, the client's own. -/
theorem RpcClient.new_presents
    (built : RpcClient.new flavour lib url user password cookiePath timeout transport = .ok client) :
    client.user = user ∧ client.password = password ∧ client.cookiePath = cookiePath.map flavour.written ∧
      ((∃ name secret, user = some name ∧ password = some secret ∧ cookiePath = none ∧ 0x3A ∉ name) ∨
        ∃ path, cookiePath = some path ∧ user = none) := by
  obtain ⟨rfl, _⟩ := RpcClient.new_eq_ok built
  refine ⟨rfl, rfl, rfl, ?_⟩
  unfold RpcClient.new at built
  split at built
  · cases built
  split_ifs at built with half both nobody colon
  cases user with
  | none =>
    cases cookiePath with
    | none => exact absurd ⟨rfl, rfl⟩ nobody
    | some path => exact .inr ⟨path, rfl, rfl⟩
  | some name =>
    cases cookiePath with
    | some path => exact absurd ⟨rfl, rfl⟩ both
    | none =>
      cases password with
      | none => exact absurd nofun half
      | some secret => exact .inl ⟨name, secret, rfl, rfl, rfl, colon⟩

/-- The credential of a client is the two it presents, and no colon is in the first. -/
theorem credential_of_presents
    (built : RpcClient.new flavour lib url user password cookiePath timeout transport = .ok client)
    (presents : Presents user password cookiePath cookie name secret) :
    client.credential cookie = .ok (name ++ 0x3A :: secret) ∧ 0x3A ∉ name := by
  obtain ⟨sameUser, samePassword, samePath, ways⟩ := RpcClient.new_presents built
  cases presents with
  | given named kept alone =>
    rcases ways with ⟨_, _, given, _, _, colon⟩ | ⟨path, there, _⟩
    · obtain rfl := Option.some.inj (named.symm.trans given)
      refine ⟨?_, colon⟩
      rw [RpcClient.credential, samePath, alone, sameUser, samePassword, named, kept]
      simp only [Option.getD_some, List.append_assoc]
      rfl
    · cases alone.symm.trans there
  | cookie path named alone line first =>
    refine ⟨?_, first⟩
    rw [RpcClient.credential, samePath, named]
    exact cookieAuth_path line _

/-- A client's credential is always two that it presents. -/
theorem exists_presents {credential : Str}
    (built : RpcClient.new flavour lib url user password cookiePath timeout transport = .ok client)
    (read : client.credential cookie = .ok credential) :
    ∃ name secret, Presents user password cookiePath cookie name secret := by
  obtain ⟨_, _, samePath, ways⟩ := RpcClient.new_presents built
  rcases ways with ⟨name, secret, named, kept, alone, _⟩ | ⟨path, named, alone⟩
  · exact ⟨name, secret, .given named kept alone⟩
  · rw [RpcClient.credential, samePath, named] at read
    obtain ⟨name, secret, rfl, first⟩ := List.eq_append_cons_of_mem (cookieAuth_colon read)
    exact ⟨name, secret, .cookie path named alone (cookieAuth_path read path) first⟩

theorem scalar_iff (text : Str) :
    (text.all fun code => code < 0xD800 || (0xE000 ≤ code && code < 0x110000)) = true ↔
      ∀ code ∈ text, Utf8.IsScalar code := by
  rw [List.all_eq_true]
  refine forall₂_congr fun code member => ?_
  simp only [Utf8.IsScalar, Utf8.Admits, Bool.or_eq_true, Bool.and_eq_true, decide_eq_true_eq,
    Bool.false_eq_true, false_or]
  omega

/-- The header of what a client presents: base64 behind the scheme, where UTF-8 encodes it. -/
theorem authHeader_eq_ok
    (built : RpcClient.new flavour lib url user password cookiePath timeout transport = .ok client)
    (presents : Presents user password cookiePath cookie name secret) :
    client.authHeader cookie = .ok header ↔ (∀ code ∈ name ++ 0x3A :: secret, Utf8.IsScalar code) ∧
      header = str "Basic " ++ b64encode (Utf8.encode (name ++ 0x3A :: secret)) := by
  rw [RpcClient.authHeader, (credential_of_presents built presents).1]
  show (if _ then _ else _) = _ ↔ _
  split_ifs with encodable
  · rw [and_iff_right ((scalar_iff _).mp encodable)]
    exact ⟨fun same => (Except.ok.inj same).symm, fun same => congrArg Except.ok same.symm⟩
  · exact iff_of_false (by rintro ⟨⟩) fun ⟨valid, _⟩ => encodable ((scalar_iff _).mpr valid)

/-- A header that is sent is read back as the two presented. -/
theorem basicCredential_of_presents
    (built : RpcClient.new flavour lib url user password cookiePath timeout transport = .ok client)
    (presents : Presents user password cookiePath cookie name secret)
    (authorized : client.authHeader cookie = .ok header) :
    basicCredential header = some (Utf8.encode name, Utf8.encode secret) ∧
      (∀ code ∈ name, Utf8.IsScalar code) ∧ ∀ code ∈ secret, Utf8.IsScalar code := by
  obtain ⟨scalar, rfl⟩ := (authHeader_eq_ok built presents).mp authorized
  obtain ⟨first, second⟩ := List.forall_mem_append.mp scalar
  exact ⟨basicCredential_encode (credential_of_presents built presents).2 scalar, first,
    (List.forall_mem_cons.mp second).2⟩

/-- What one client presents under a header, another that sends it presents. -/
theorem presents_of_same {url' : Str} {user' password' cookiePath' : Option Str} {timeout' : Timeout}
    {transport' : Transport} {client' : RpcClient} {cookie' : CookieFile}
    (built : RpcClient.new flavour lib url user password cookiePath timeout transport = .ok client)
    (built' : RpcClient.new flavour lib url' user' password' cookiePath' timeout' transport' = .ok client')
    (authorized : client.authHeader cookie = .ok header)
    (authorized' : client'.authHeader cookie' = .ok header)
    (presents : Presents user password cookiePath cookie name secret) :
    Presents user' password' cookiePath' cookie' name secret := by
  obtain ⟨credential, read, _⟩ := bind_eq_ok authorized'
  obtain ⟨name', secret', presents'⟩ := exists_presents built' read
  obtain ⟨told, scalar, scalarBehind⟩ := basicCredential_of_presents built presents authorized
  obtain ⟨told', scalar', scalarBehind'⟩ := basicCredential_of_presents built' presents' authorized'
  obtain ⟨names, secrets⟩ := Prod.mk.inj (Option.some.inj (told.symm.trans told'))
  rw [encode_inj scalar scalar' names, encode_inj scalarBehind scalarBehind' secrets]
  exact presents'

/-- The header a client sends is read back as the user and the password it presents, and as no
others: those it was built with, or the two fields of the cookie file as it stands at the call. It
has one wherever UTF-8 encodes them, and two clients that send one header present the same. -/
theorem credential_told (flavour : Paths.Flavour) (lib : Urlparse) (url : Str)
    (user password cookiePath : Option Str) (timeout : Timeout) (transport : Transport)
    (client : RpcClient) (cookie : CookieFile)
    (built : RpcClient.new flavour lib url user password cookiePath timeout transport = .ok client) :
    (∀ header, client.authHeader cookie = .ok header → ∃ name secret,
      Presents user password cookiePath cookie name secret ∧
        basicCredential header = some (Utf8.encode name, Utf8.encode secret)) ∧
    (∀ name secret, Presents user password cookiePath cookie name secret →
      ((∃ header, client.authHeader cookie = .ok header) ↔
        ∀ code ∈ name ++ secret, Utf8.IsScalar code)) ∧
    ∀ url' user' password' cookiePath' timeout' transport' client' cookie' header,
      RpcClient.new flavour lib url' user' password' cookiePath' timeout' transport' = .ok client' →
      client.authHeader cookie = .ok header → client'.authHeader cookie' = .ok header →
      ∀ name secret, Presents user password cookiePath cookie name secret ↔
        Presents user' password' cookiePath' cookie' name secret := by
  refine ⟨fun header authorized => ?_, fun name secret presents => ⟨?_, fun scalar => ?_⟩, ?_⟩
  · obtain ⟨credential, read, _⟩ := bind_eq_ok authorized
    obtain ⟨name, secret, presents⟩ := exists_presents built read
    exact ⟨name, secret, presents, (basicCredential_of_presents built presents authorized).1⟩
  · rintro ⟨header, authorized⟩
    obtain ⟨_, first, second⟩ := basicCredential_of_presents built presents authorized
    exact List.forall_mem_append.mpr ⟨first, second⟩
  · obtain ⟨first, second⟩ := List.forall_mem_append.mp scalar
    refine ⟨_, (authHeader_eq_ok built presents).mpr ⟨?_, rfl⟩⟩
    have colon : Utf8.IsScalar 0x3A := by
      unfold Utf8.IsScalar Utf8.Admits
      decide
    exact List.forall_mem_append.mpr ⟨first, List.forall_mem_cons.mpr ⟨colon, second⟩⟩
  · intro url' user' password' cookiePath' timeout' transport' client' cookie' header built' authorized
      authorized' name secret
    exact ⟨presents_of_same built built' authorized authorized',
      presents_of_same built' built authorized' authorized⟩

end Presenting

/-- Of two colons in the line of a cookie file, the second is of the password. -/
theorem credential_told_cookie :
    ∃ name secret, Presents none none (some (str "/c")) (.regular (str "a:b:c\n")) name secret ∧
      (Utf8.encode name, Utf8.encode secret) = (str "a", str "b:c") := by
  have built : RpcClient.new Paths.posix ascii (str "http://localhost:8332/") none none
      (some (str "/c")) ⟨1, []⟩ .urlopen =
        .ok ⟨str "http://localhost:8332/", none, none, some (str "/c"), ⟨1, []⟩, .urlopen⟩ := by
    have checked : checkedUrl ascii .rpc (str "http://localhost:8332/") =
        .ok (str "http://localhost:8332/") := by decide +kernel
    have waits : assertValidTimeout ⟨1, []⟩ (str "rpc timeout") = .ok () := by decide +kernel
    rw [RpcClient.new, checked]
    simp only [waits]
    rfl
  obtain ⟨name, secret, presents, read⟩ := (credential_told Paths.posix ascii _ none none
    (some (str "/c")) _ _ _ (.regular (str "a:b:c\n")) built).1 (str "Basic YTpiOmM=") (by decide +kernel)
  have told : basicCredential (str "Basic YTpiOmM=") = some (str "a", str "b:c") := by decide +kernel
  exact ⟨name, secret, presents, Option.some.inj (read.symm.trans told)⟩

end BitcoinCoreRpc
