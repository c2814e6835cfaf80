/-
This file models the client of a wallet: the constructor of the rpc client, and
`for_wallet`, which derives from it a client for one wallet of the node.

The url of a wallet is the node's without its trailing slashes, then `/wallet/`, then the
name percent-encoded, and the constructor checks it again. A client whose path already
ends so is refused a second name by what its path reads back as, cut at its slashes. The
main result says that the segment a name adds is the name and no other's, that a client
derived once is derived no further, and that no other client is refused a name.
-/

import BitcoinCoreRpc.Endpoint
import BitcoinCoreRpc.Paths
import BitcoinCoreRpc.Utf8

namespace BitcoinCoreRpc

open Paths (Flavour posix)

/-! ### The client -/

/-- A `BitcoinCoreRpcClient`. -/
structure RpcClient where
  url : Str
  user : Option Str
  password : Option Str
  /-- A `Path`, as it is written. -/
  cookiePath : Option Str
  timeout : Timeout
  transport : Transport

/-- `BitcoinCoreRpcClient(url, user=..., password=..., cookie_path=..., ...)` -/
def RpcClient.new (flavour : Flavour) (lib : Urlparse) (url : Str) (user password cookiePath : Option Str)
    (timeout : Timeout) (transport : Transport) : Except Exc RpcClient :=
  match checkedUrl lib .rpc url with
  | .error e => .error e
  | .ok url =>
    if user.isNone ≠ password.isNone then
      .error (.btcRpcValueError (str "rpc user and password go together, or neither"))
    else if user.isSome ∧ cookiePath.isSome then
      .error (.btcRpcValueError (str "both rpc credentials and a cookie path:" ++
        str " either of them says who is calling, so pass one"))
    else if user = none ∧ cookiePath = none then
      .error (.btcRpcValueError (str "no rpc credentials: pass user and password, or the" ++
        str " path of the cookie file the node writes"))
    else if 0x3A ∈ user.getD [] then
      .error (.btcRpcValueError (str "colon in the rpc user. The credential is user:password" ++
        str " and the node splits it at the first colon, so a user" ++
        str " containing one names a different user than intended"))
    else
      match assertValidTimeout timeout (str "rpc timeout") with
      | .error e => .error e
      | .ok () => .ok ⟨url, user, password, cookiePath.map flavour.written, timeout, transport⟩

/-- `quote(name, safe="")`, `none` for its `UnicodeEncodeError`. -/
def quote (name : Str) : Option Str :=
  if name.all fun code => code < 0xD800 || (0xE000 ≤ code && code < 0x110000) then
    some (UrlText.quoteOctets (Utf8.encode name))
  else none

/-- `path.rstrip("/").split("/")[-2:]`: the last two segments, a trailing slash not counting as
one. -/
def lastSegments (path : Str) : List Str :=
  let segments := (UrlText.rstrip 0x2F path).splitOn 0x2F
  segments.drop (segments.length - 2)

/-- `BitcoinCoreRpcClient.for_wallet`, of a name that is a string. -/
def RpcClient.forWallet (flavour : Flavour) (lib : Urlparse) (client : RpcClient) (walletName : Str) :
    Except Exc RpcClient :=
  match lib.urlsplit client.url with
  | none => .error (.valueError (str "Invalid IPv6 URL"))
  | some split =>
    if (lastSegments split.path).contains (str "wallet") then
      .error (.btcRpcValueError (str "this client is already the /wallet/<name> endpoint of" ++
        str " a node: call for_wallet on the client it was derived" ++ str " from"))
    else
      match quote walletName with
      | none => .error (.btcRpcValueError (str "rpc wallet name that utf-8 cannot encode"))
      | some quoted =>
        RpcClient.new flavour lib (UrlText.rstrip 0x2F client.url ++ (str "/wallet/" ++ quoted))
          client.user client.password client.cookiePath client.timeout client.transport

example : (RpcClient.new posix ascii (str "http://localhost:8332/node/") none none (some (str "/c"))
      ⟨1, []⟩ .urlopen >>= fun client => client.forWallet posix ascii (str "a/b?")).map RpcClient.url =
    .ok (str "http://localhost:8332/node/wallet/a%2Fb%3F") := by
  decide +kernel

/-! ### What a name adds -/

section Names

variable {name quoted : Str}

theorem quote_eq_some :
    quote name = some quoted ↔
      (∀ code ∈ name, Utf8.IsScalar code) ∧ quoted = UrlText.quoteOctets (Utf8.encode name) := by
  have scalar : (name.all fun code => code < 0xD800 || (0xE000 ≤ code && code < 0x110000)) = true ↔
      ∀ code ∈ name, Utf8.IsScalar code := by
    rw [List.all_eq_true]
    refine forall₂_congr fun code _ => ?_
    simp only [Utf8.IsScalar, Utf8.Admits, Bool.or_eq_true, Bool.and_eq_true, decide_eq_true_eq,
      Bool.false_eq_true, false_or]
    omega
  unfold quote
  split_ifs with encodable
  · rw [Option.some.injEq, eq_comm, and_iff_right (scalar.mp encodable)]
  · exact iff_of_false (by rintro ⟨⟩) fun ⟨valid, _⟩ => encodable (scalar.mpr valid)

theorem mem_quote (spelled : quote name = some quoted) {code : Nat} (member : code ∈ quoted) :
    UrlText.isUnreserved code = true ∨ code = 0x25 := by
  obtain ⟨scalar, rfl⟩ := quote_eq_some.mp spelled
  exact UrlText.mem_quoteOctets (Utf8.encode_lt scalar) member

theorem not_mem_quote (spelled : quote name = some quoted) {code : Nat}
    (reserved : UrlText.isUnreserved code = false) (other : code ≠ 0x25) : code ∉ quoted := by
  intro member
  rcases mem_quote spelled member with unreserved | percent
  · rw [reserved] at unreserved
    cases unreserved
  · exact other percent

theorem quote_printable (spelled : quote name = some quoted) :
    ∀ code ∈ quoted, 0x20 < code ∧ code < 0x7F := by
  intro code member
  have written := mem_quote spelled member
  simp only [UrlText.isUnreserved, UrlText.isLetter, Bool.or_eq_true, Bool.and_eq_true,
    decide_eq_true_eq, beq_iff_eq] at written
  omega

/-- A quoted name is read back. -/
theorem decode_unquote_quote (spelled : quote name = some quoted) :
    Utf8.decode false (UrlText.unquote quoted) = some name := by
  obtain ⟨scalar, rfl⟩ := quote_eq_some.mp spelled
  rw [UrlText.unquote_quoteOctets (Utf8.encode_lt scalar)]
  exact Utf8.decode_eq_some_iff.mpr ⟨rfl, scalar⟩

/-- What follows the last slash of what is composed is the name. -/
theorem composed_unique {front front' name' quoted' : Str} (spelled : quote name = some quoted)
    (spelled' : quote name' = some quoted')
    (same : front ++ (str "/wallet/" ++ quoted) = front' ++ (str "/wallet/" ++ quoted')) :
    name = name' := by
  have cut {front name quoted : Str} (spelled : quote name = some quoted) :
      (UrlText.rpartition 0x2F (front ++ (str "/wallet/" ++ quoted))).2 = quoted := by
    have slash : front ++ (str "/wallet/" ++ quoted) = (front ++ str "/wallet") ++ 0x2F :: quoted := by
      rw [List.append_assoc]
      rfl
    rw [slash, UrlText.rpartition_cut (not_mem_quote spelled (by decide) (by decide))]
  have quotes : quoted = quoted' := by rw [← cut spelled, same, cut spelled']
  have names := decode_unquote_quote spelled
  rw [quotes, decode_unquote_quote spelled'] at names
  exact (Option.some.inj names).symm

/-- The path of a wallet's client ends in its name with `wallet` before it, or, where the name is
empty, in `wallet`. -/
theorem wallet_mem_lastSegments (base : Str) (spelled : quote name = some quoted) :
    str "wallet" ∈ lastSegments (base ++ (str "/wallet/" ++ quoted)) := by
  have drop_two {Item : Type} (front : List Item) (first last : Item) :
      (front ++ [first, last]).drop ((front ++ [first, last]).length - 2) = [first, last] := by
    rw [List.length_append, List.length_cons, List.length_singleton, Nat.add_sub_cancel,
      List.drop_left]
  have noSlash : 0x2F ∉ str "wallet" := by decide
  rcases List.eq_nil_or_concat quoted with rfl | ⟨front, last, rfl⟩
  · -- the slash behind the marker is stripped, and the marker is the last segment
    have stripped : UrlText.rstrip 0x2F (base ++ (str "/wallet/" ++ [])) =
        base ++ 0x2F :: str "wallet" := by
      have ends : base ++ (str "/wallet/" ++ []) = (base ++ str "/walle") ++ 0x74 :: [0x2F] := by
        rw [List.append_assoc]
        rfl
      rw [ends, UrlText.rstrip_append (by decide), List.append_assoc]
      rfl
    unfold lastSegments
    rw [stripped, List.splitOn_append_cons_self, List.splitOn_eq_singleton noSlash]
    dsimp only
    rw [List.length_append, List.length_singleton, List.drop_append_of_le_length (by omega)]
    exact List.mem_append_right _ (List.mem_singleton_self _)
  · rw [List.concat_eq_append] at spelled ⊢
    have absent : 0x2F ∉ front ++ [last] := not_mem_quote spelled (by decide) (by decide)
    have stripped : UrlText.rstrip 0x2F (base ++ (str "/wallet/" ++ (front ++ [last]))) =
        base ++ 0x2F :: (str "wallet" ++ 0x2F :: (front ++ [last])) := by
      have ends : last ≠ 0x2F := by
        rintro rfl
        exact absent (List.mem_append_right _ List.mem_cons_self)
      have together : base ++ (str "/wallet/" ++ (front ++ [last])) =
          (base ++ (str "/wallet/" ++ front)) ++ last :: [] := by
        simp only [List.append_assoc]
      rw [together, UrlText.rstrip_append ends]
      exact together.symm
    unfold lastSegments
    rw [stripped, List.splitOn_append_cons_self, List.splitOn_append_cons_self_of_not_mem noSlash,
      List.splitOn_eq_singleton absent, drop_two]
    exact List.mem_cons_self

end Names

/-! ### Deriving a client -/

section Deriving

variable {flavour : Flavour} {lib : Urlparse} {url : Str} {user password cookiePath : Option Str}
  {timeout : Timeout} {transport : Transport} {client : RpcClient} {walletName : Str}

/-- What the constructor accepts it accepts with any other url that is checked, the path as written. -/
theorem RpcClient.new_eq_ok
    (built : RpcClient.new flavour lib url user password cookiePath timeout transport = .ok client) :
    client = ⟨url, user, password, cookiePath.map flavour.written, timeout, transport⟩ ∧
      checkedUrl lib .rpc url = .ok url ∧
      (∀ url', checkedUrl lib .rpc url' = .ok url' →
        ∃ cookiePath', RpcClient.new flavour lib url' user password (cookiePath.map flavour.written)
          timeout transport = .ok ⟨url', user, password, cookiePath', timeout, transport⟩) := by
  unfold RpcClient.new at built ⊢
  split at built
  · cases built
  rename_i answer checked
  obtain ⟨rfl, _⟩ := checkedUrl_eq_ok checked
  split_ifs at built with half both none_ colon
  split at built
  · cases built
  rename_i waits
  cases built
  refine ⟨rfl, checked, fun url' other => ?_⟩
  simp only [other, Option.isSome_map, Option.map_eq_none_iff, if_neg half, if_neg both, if_neg none_,
    if_neg colon]
  exact ⟨_, rfl⟩

theorem RpcClient.new_eq_error {e : Exc} (refused : checkedUrl lib .rpc url = .error e) :
    RpcClient.new flavour lib url user password cookiePath timeout transport = .error e := by
  rw [RpcClient.new, refused]

/-- What `for_wallet` meets, and answers there. -/
inductive Derived (lib : Urlparse) (client : RpcClient) (walletName : Str) :
    Except Exc RpcClient → Prop
  | second {parts : UrlText.Parts} (message : Str) (split : lib.urlsplit client.url = some parts)
      (wallet : str "wallet" ∈ lastSegments parts.path) :
      Derived lib client walletName (.error (.btcRpcValueError message))
  | unquoted (message : Str) (unencodable : quote walletName = none) :
      Derived lib client walletName (.error (.btcRpcValueError message))
  | marked (message : Str) (mark : ¬ (0x3F ∉ client.url ∧ 0x23 ∉ client.url)) :
      Derived lib client walletName (.error (.btcRpcValueError message))
  | first {parts : UrlText.Parts} {quoted : Str} (wallet : RpcClient)
      (split : lib.urlsplit client.url = some parts)
      (spelled : quote walletName = some quoted)
      (composed : wallet.url = UrlText.rstrip 0x2F client.url ++ (str "/wallet/" ++ quoted))
      (split' : lib.urlsplit wallet.url =
        some { parts with path := UrlText.rstrip 0x2F parts.path ++ (str "/wallet/" ++ quoted) }) :
      Derived lib client walletName (.ok wallet)

/-- A path followed by nothing the constructors refuse splits into itself. -/
theorem splitTail_path {path : Str} (noMark : 0x3F ∉ path) (noSign : 0x23 ∉ path) :
    UrlText.splitTail path = (path, [], []) := by
  unfold UrlText.splitTail
  rw [UrlText.partition_whole noSign]
  dsimp only
  rw [UrlText.partition_whole noMark]
  rfl

/-- What is put behind the mark of an empty query or fragment is in that query or fragment. -/
theorem splitTail_marked {path marks more : Str} (noMark : 0x3F ∉ path) (noSign : 0x23 ∉ path)
    (shape : marks = [0x3F] ∨ marks = [0x23] ∨ marks = [0x3F, 0x23]) (quiet : 0x23 ∉ more)
    (some_more : more ≠ []) :
    (UrlText.splitTail (path ++ marks ++ more)).2.1 ≠ [] ∨
      (UrlText.splitTail (path ++ marks ++ more)).2.2 ≠ [] := by
  have signed {front : Str} (quietFront : 0x23 ∉ front) :
      (UrlText.splitTail (front ++ 0x23 :: more)).2.2 = more := by
    unfold UrlText.splitTail
    rw [UrlText.partition_cut quietFront]
    rfl
  rcases shape with rfl | rfl | rfl
  · left
    have whole : 0x23 ∉ path ++ 0x3F :: more := by
      simp only [List.mem_append, List.mem_cons, not_or]
      exact ⟨noSign, by decide, quiet⟩
    unfold UrlText.splitTail
    rw [List.append_assoc, List.singleton_append, UrlText.partition_whole whole]
    dsimp only
    rw [UrlText.partition_cut noMark]
    exact some_more
  · right
    rw [List.append_assoc, List.singleton_append, signed noSign]
    exact some_more
  · right
    have front : path ++ [0x3F, 0x23] ++ more = (path ++ [0x3F]) ++ 0x23 :: more := by
      simp only [List.append_assoc, List.cons_append, List.nil_append]
    rw [front, signed]
    · exact some_more
    · simp only [List.mem_append, List.mem_singleton, not_or]
      exact ⟨noSign, by decide⟩

theorem forWallet_derived
    (built : RpcClient.new flavour lib url user password cookiePath timeout transport = .ok client)
    (walletName : Str) :
    Derived lib client walletName (client.forWallet flavour lib walletName) := by
  obtain ⟨rfl, checked, _⟩ := RpcClient.new_eq_ok built
  obtain ⟨_, parts, host, port, accepted⟩ := checkedUrl_eq_ok checked
  rw [RpcClient.forWallet, accepted.split]
  dsimp only
  by_cases wallet : str "wallet" ∈ lastSegments parts.path
  · rw [if_pos (List.contains_iff_mem.mpr wallet)]
    exact .second _ accepted.split wallet
  rw [if_neg (mt List.contains_iff_mem.mp wallet)]
  rcases spelled : quote walletName with _ | quoted
  · exact .unquoted _ spelled
  dsimp only
  have printable : ∀ code ∈ str "/wallet/" ++ quoted, 0x20 < code ∧ code < 0x7F := by
    intro code member
    rcases List.mem_append.mp member with fixed | named
    · have letters : ∀ code ∈ str "/wallet/", 0x20 < code ∧ code < 0x7F := by decide
      exact letters code fixed
    · exact quote_printable spelled code named
  have absent {code : Nat} (fixed : code ∉ str "/wallet/") (reserved : UrlText.isUnreserved code = false)
      (other : code ≠ 0x25) : code ∉ str "/wallet/" ++ quoted := by
    intro member
    rcases List.mem_append.mp member with here | there
    · exact fixed here
    · exact not_mem_quote spelled reserved other there
  have noSignMore : 0x23 ∉ str "/wallet/" ++ quoted := absent (by decide) (by decide) (by decide)
  have noMarkMore : 0x3F ∉ str "/wallet/" ++ quoted := absent (by decide) (by decide) (by decide)
  obtain ⟨name, marks, together, rfl, noMark, noSign, shape, marked⟩ := accepted.spelled
  have splits := extended_splits together accepted.toSplits
    (⟨_, rfl⟩ : ∃ rest, str "/wallet/" ++ quoted = 0x2F :: rest) printable
  rw [← extended_eq together (netloc_ne_nil accepted.toSplits)] at splits
  by_cases plain : marks = []
  · subst plain
    have noMark' : 0x3F ∉ UrlText.rstrip 0x2F parts.path ++ (str "/wallet/" ++ quoted) := fun member =>
      (List.mem_append.mp member).elim (fun here => noMark (UrlText.mem_rstrip here)) noMarkMore
    have noSign' : 0x23 ∉ UrlText.rstrip 0x2F parts.path ++ (str "/wallet/" ++ quoted) := fun member =>
      (List.mem_append.mp member).elim (fun here => noSign (UrlText.mem_rstrip here)) noSignMore
    rw [List.append_nil, splitTail_path noMark' noSign'] at splits
    rw [List.append_nil] at built ⊢
    have let_through : checkedUrl lib .rpc _ = .ok _ := checkedUrl_of_accepted ⟨splits, rfl, rfl⟩
    obtain ⟨_, _, derives⟩ := RpcClient.new_eq_ok built
    rw [List.append_nil] at accepted
    obtain ⟨_, derived⟩ := derives _ let_through
    rw [derived]
    refine .first _ accepted.split spelled rfl ?_
    rw [splits.split, accepted.query, accepted.fragment]
  · have marks' : marks = [0x3F] ∨ marks = [0x23] ∨ marks = [0x3F, 0x23] :=
      shape.resolve_left plain
    have whole : UrlText.rstrip 0x2F (parts.path ++ marks) = parts.path ++ marks := by
      rcases marks' with rfl | rfl | rfl
      · exact UrlText.rstrip_append (by decide)
      · exact UrlText.rstrip_append (by decide)
      · rw [show parts.path ++ [0x3F, 0x23] = (parts.path ++ [0x3F]) ++ [0x23] by simp]
        exact UrlText.rstrip_append (by decide)
    have refused : ∃ message, checkedUrl lib .rpc (UrlText.rstrip 0x2F
        (UrlText.spell name parts.netloc (parts.path ++ marks)) ++ (str "/wallet/" ++ quoted)) =
          .error (.btcRpcValueError message) := by
      refine (checkedUrl_cases lib .rpc _).resolve_left fun let_through => ?_
      obtain ⟨_, parts', _, _, accepted'⟩ := checkedUrl_eq_ok let_through
      obtain rfl := Option.some.inj (splits.split.symm.trans accepted'.split)
      rcases splitTail_marked noMark noSign marks' noSignMore
          (List.cons_ne_nil _ _) with query | fragment
      · exact query (whole ▸ accepted'.query)
      · exact fragment (whole ▸ accepted'.fragment)
    obtain ⟨message, refused⟩ := refused
    rw [RpcClient.new_eq_error refused]
    exact .marked message (mt marked.mp plain)

end Deriving

/-- Of every client the constructor builds: a name is refused, or the client it derives has the path
of the first without its trailing slashes, `/wallet/`, and one segment more, which decodes to the
name, and is refused every name itself. Two names never give one url, and a client whose path has no
`wallet` among its last two segments, and whose url has no mark, is refused no name that can be
encoded. -/
theorem forWallet_addresses {flavour : Flavour} {lib : Urlparse} {url : Str}
    {user password cookiePath : Option Str} {timeout : Timeout} {transport : Transport} {client : RpcClient}
    (built : RpcClient.new flavour lib url user password cookiePath timeout transport = .ok client) :
    (∀ name, (∃ message, client.forWallet flavour lib name = .error (.btcRpcValueError message)) ∨
      ∃ wallet parts segment, client.forWallet flavour lib name = .ok wallet ∧
        lib.urlsplit client.url = some parts ∧
        lib.urlsplit wallet.url = some { parts with
          path := UrlText.rstrip 0x2F parts.path ++ (str "/wallet/" ++ segment) } ∧
        0x2F ∉ segment ∧ Utf8.decode false (UrlText.unquote segment) = some name ∧
        ∀ second, ∃ message, wallet.forWallet flavour lib second = .error (.btcRpcValueError message)) ∧
    (∀ url' user' password' cookiePath' timeout' transport' other name name' wallet wallet',
      RpcClient.new flavour lib url' user' password' cookiePath' timeout' transport' = .ok other →
      client.forWallet flavour lib name = .ok wallet → other.forWallet flavour lib name' = .ok wallet' →
      wallet.url = wallet'.url → name = name') ∧
    ∀ name parts, lib.urlsplit client.url = some parts → str "wallet" ∉ lastSegments parts.path →
      0x3F ∉ client.url → 0x23 ∉ client.url → (∀ code ∈ name, Utf8.IsScalar code) →
      ∃ wallet, client.forWallet flavour lib name = .ok wallet := by
  refine ⟨fun name => ?_, ?_, fun name parts split first noMark noSign scalar => ?_⟩
  · have derived := forWallet_derived built name
    generalize client.forWallet flavour lib name = outcome at derived
    cases derived with
    | second message | unquoted message | marked message => exact .inl ⟨message, rfl⟩
    | @first parts quoted wallet split spelled _ split' =>
      refine .inr ⟨wallet, parts, quoted, rfl, split, split',
        not_mem_quote spelled (by decide) (by decide), decode_unquote_quote spelled, fun second => ?_⟩
      rw [RpcClient.forWallet, split']
      dsimp only
      rw [if_pos (List.contains_iff_mem.mpr (wallet_mem_lastSegments _ spelled))]
      exact ⟨_, rfl⟩
  · intro url' user' password' cookiePath' timeout' transport' other name name' wallet wallet'
      otherBuilt made made' same
    have derived := forWallet_derived built name
    have derived' := forWallet_derived otherBuilt name'
    rw [made] at derived
    rw [made'] at derived'
    cases derived with
    | first _ _ spelled composed =>
      cases derived' with
      | first _ _ spelled' composed' =>
        rw [composed, composed'] at same
        exact composed_unique spelled spelled' same
  · have derived := forWallet_derived built name
    generalize client.forWallet flavour lib name = outcome at derived
    cases derived with
    | second _ split' wallet =>
      obtain rfl := Option.some.inj (split.symm.trans split')
      exact absurd wallet first
    | unquoted _ unencodable =>
      rw [quote_eq_some.mpr ⟨scalar, rfl⟩] at unencodable
      cases unencodable
    | marked _ mark => exact absurd ⟨noMark, noSign⟩ mark
    | first wallet => exact ⟨wallet, rfl⟩

/-- A client of a node at no path. -/
def nodeClient : RpcClient :=
  ⟨str "http://localhost:8332/", none, none, some (str "/c"), ⟨1, []⟩, .urlopen⟩

theorem forWallet_addresses_node :
    ∃ wallet, nodeClient.forWallet posix ascii (str "a/b") = .ok wallet ∧
      wallet.url = str "http://localhost:8332/wallet/a%2Fb" ∧
      ∀ second, ∃ message, wallet.forWallet posix ascii second = .error (.btcRpcValueError message) := by
  have built : RpcClient.new posix ascii (str "http://localhost:8332/") none none (some (str "/./c"))
      ⟨1, []⟩ .urlopen = .ok nodeClient := by
    have checked : checkedUrl ascii .rpc (str "http://localhost:8332/") =
        .ok (str "http://localhost:8332/") := by decide +kernel
    have waits : assertValidTimeout ⟨1, []⟩ (str "rpc timeout") = .ok () := by decide +kernel
    have path : posix.written (str "/./c") = str "/c" := by decide +kernel
    rw [RpcClient.new, checked]
    simp only [waits, Option.map_some, path]
    rfl
  have split : ascii.urlsplit (str "http://localhost:8332/") =
      some ⟨str "http", str "localhost:8332", str "/", [], []⟩ := by decide +kernel
  have small : ∀ code ∈ str "a/b", code < 0xD800 := by decide
  obtain ⟨adds, _, derives⟩ := forWallet_addresses built
  obtain ⟨wallet, made⟩ := derives (str "a/b") _ split (by decide +kernel) (by decide) (by decide)
    fun code member => ⟨(small code member).trans (by decide), .inr (.inl (small code member))⟩
  rcases adds (str "a/b") with ⟨message, refused⟩ | ⟨wallet', _, _, made', _, _, _, _, second⟩
  · rw [made] at refused
    cases refused
  · cases made.symm.trans made'
    refine ⟨wallet, made, ?_, second⟩
    have url : (nodeClient.forWallet posix ascii (str "a/b")).map RpcClient.url =
        .ok (str "http://localhost:8332/wallet/a%2Fb") := by decide +kernel
    rw [made] at url
    exact Except.ok.inj url

end BitcoinCoreRpc
