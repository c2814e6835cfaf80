/-
This file models `from_chain` of either client: the tables of Core's chains, the datadir of
the platform, the path of the cookie file below it, and the client of a local node, asked
for its chain where the caller says so.

Paths are of any lawful flavour. The main result says when a client is returned and which,
that whatever is refused before the node is asked is refused with nothing sent, that no
request goes anywhere but the loopback port of the chain, and that the clients of two chains
share neither an address nor a cookie file.
-/

import BitcoinCoreRpc.Call
import BitcoinCoreRpc.Paths

namespace BitcoinCoreRpc

open Paths

/-! ### The tables -/

/-- What a table has for a name, or the refusal of a name it has nothing for. -/
def lookedUp {α : Type} (table : List (Str × α)) (what name : Str) : Except Exc α :=
  match table.lookup name with
  | some entry => .ok entry
  | none => .error (.btcRpcValueError (str "unknown " ++ what ++ str ": " ++ quotedName name ++
      str " not in (" ++ (str ", ").intercalate (table.map Prod.fst) ++ str ")"))

/-- `_RPC_PORT_FROM_CHAIN` -/
def portTable : List (Str × Nat) :=
  [(str "main", 8332), (str "test", 18332), (str "testnet4", 48332), (str "signet", 38332),
    (str "regtest", 18443)]

/-- `_DATADIR_SUBDIR_FROM_CHAIN` -/
def subdirTable : List (Str × Str) :=
  [(str "main", []), (str "test", str "testnet3"), (str "testnet4", str "testnet4"),
    (str "signet", str "signet"), (str "regtest", str "regtest")]

/-- `_CHAIN_FROM_NETWORK` -/
def chainTable : List (Str × Str) :=
  [(str "mainnet", str "main"), (str "testnet", str "test"), (str "testnet4", str "testnet4"),
    (str "signet", str "signet"), (str "regtest", str "regtest")]

/-- `_NETWORK_FROM_CHAIN` -/
def networkTable : List (Str × Str) := chainTable.map Prod.swap

/-- `rpc_port_from_chain` -/
def rpcPortFromChain : Str → Except Exc Nat := lookedUp portTable (str "Core chain")

/-- `datadir_subdir_from_chain` -/
def datadirSubdirFromChain : Str → Except Exc Str := lookedUp subdirTable (str "Core chain")

/-- `chain_from_network` -/
def chainFromNetwork : Str → Except Exc Str := lookedUp chainTable (str "network")

/-- `network_from_chain` -/
def networkFromChain : Str → Except Exc Str := lookedUp networkTable (str "Core chain")

/-- The magic bytes are looked up the same way. -/
theorem magicFromChain_eq : magicFromChain = lookedUp magicTable (str "Core chain") := by
  funext chain
  rw [magicFromChain, lookedUp]
  cases magicTable.lookup chain with
  | some magic => rfl
  | none =>
    have known : (str ", ").intercalate (magicTable.map Prod.fst) =
        str "main, test, testnet4, signet, regtest" := by decide +kernel
    simp only [known]
    simp [str]

/-! ### The cookie file -/

/-- What the process is told of where it runs: `sys.platform`, what `Path.home()` answers, `none`
for its `RuntimeError`, and the environment. -/
structure Platform where
  name : Str
  home : Option Str
  environ : Str → Option Str

/-- `_DATADIR_FROM_PLATFORM` -/
def datadirTable : List (Str × Option Str × List Str) :=
  [(str "darwin", none, [str "Library", str "Application Support", str "Bitcoin"]),
    (str "win32", some (str "APPDATA"), [str "Bitcoin"])]

/-- `_DATADIR_ELSEWHERE` -/
def datadirElsewhere : Option Str × List Str := (none, [str ".bitcoin"])

section Cookies

variable (flavour : Flavour) (platform : Platform)

/-- `default_datadir` -/
def defaultDatadir : Option flavour.Path :=
  let (baseVar, subdirs) := (datadirTable.lookup platform.name).getD datadirElsewhere
  let named := match baseVar with
    | none => platform.home
    | some variable_ => platform.environ variable_
  match named.map flavour.parse with
  | some base => if flavour.isAbsolute base then some (subdirs.foldl flavour.join base) else none
  | none => none

/-- `cookie_path_from_chain`, of a datadir that is a path. -/
def cookiePathFromChain (chain : Str) (datadir : Option flavour.Path) : Except Exc flavour.Path :=
  match datadir.orElse fun _ => defaultDatadir flavour platform with
  | none => .error (.btcRpcValueError (str "no absolute home directory (APPDATA on Windows), so" ++
      str " no default datadir to find the cookie file in:" ++ str " pass datadir"))
  | some datadir => do
    let subdir ← datadirSubdirFromChain chain
    return flavour.join (flavour.join datadir subdir) (str ".cookie")

end Cookies

/-! ### The clients -/

/-- `f"http://127.0.0.1:{port}"` -/
def loopbackUrl (port : Nat) : Str := str "http://127.0.0.1:" ++ natText port

/-- The `cookie_path` that `from_chain` passes on: the one derived where the caller said nothing of
who is calling. -/
def localCookiePath (flavour : Flavour) (platform : Platform) (chain : Str)
    (user password cookiePath : Option Str) : Except Exc (Option Str) :=
  if user = none ∧ password = none ∧ cookiePath = none then
    match defaultDatadir flavour platform with
    | none => .error (.btcRpcValueError (str "no absolute home directory (APPDATA on Windows)," ++
        str " so no default datadir to find the cookie file" ++
        str " in: pass cookie_path, or user and password"))
    | some datadir => do
      let path ← cookiePathFromChain flavour platform chain (some datadir)
      return some (flavour.text path)
  else .ok cookiePath

/-- `BitcoinCoreRpcClient.from_chain`, up to the client it builds. -/
def RpcClient.localNode (flavour : Flavour) (platform : Platform) (lib : Urlparse) (chain : Str)
    (user password cookiePath : Option Str) (timeout : Timeout) (transport : Transport)
    (verifyChain : Bool) (signetChallenge : Option Challenge) : Except Exc RpcClient := do
  let port ← rpcPortFromChain chain
  if signetChallenge.isSome ∧ ¬ verifyChain then
    .error (.btcRpcValueError (str "a signet_challenge is what verify_chain compares," ++
      str " and checks nothing with it off"))
  else do
    let cookiePath ← localCookiePath flavour platform chain user password cookiePath
    RpcClient.new flavour lib (loopbackUrl port) user password cookiePath timeout transport

/-- `BitcoinCoreRpcClient.from_chain`, the files at the paths of cookie files being given. -/
def RpcClient.fromChain (flavour : Flavour) (platform : Platform) (lib : Urlparse) (world : World)
    (hexError : Str → Str) (frames : Nat) (files : Str → CookieFile) (requestId : Str) (chain : Str)
    (user password cookiePath : Option Str) (timeout : Timeout) (transport : Transport)
    (verifyChain : Bool) (signetChallenge : Option Challenge) (session : Session) :
    Except Exc RpcClient × Session :=
  match RpcClient.localNode flavour platform lib chain user password cookiePath timeout transport
      verifyChain signetChallenge with
  | .error e => (.error e, session)
  | .ok client =>
    if verifyChain then
      match client.assertChain world hexError frames (files (client.cookiePath.getD [])) requestId
          chain signetChallenge session with
      | (.error e, session) => (.error e, session)
      | (.ok (), session) => (.ok client, session)
    else (.ok client, session)

/-- `BitcoinCoreRestClient.from_chain` -/
def RestClient.fromChain (lib : Urlparse) (chain : Str) (timeout : Timeout) (transport : Transport) :
    Except Exc RestClient := do
  let port ← rpcPortFromChain chain
  RestClient.new lib (loopbackUrl port) timeout transport

/-! ### What the tables have -/

section Tables

variable {α β : Type} {table : List (Str × α)} {what name other : Str} {entry : α}

theorem mem_of_lookup (found : table.lookup name = some entry) : (name, entry) ∈ table := by
  obtain ⟨front, back, rfl, _⟩ := List.lookup_eq_some_iff.mp found
  exact List.mem_append_right _ List.mem_cons_self

theorem lookup_of_mem (distinct : (table.map Prod.fst).Nodup) (member : (name, entry) ∈ table) :
    table.lookup name = some entry := by
  cases found : table.lookup name with
  | none => exact absurd rfl (bne_iff_ne.mp (List.lookup_eq_none_iff.mp found _ member))
  | some entry' =>
    have same := List.inj_on_of_nodup_map distinct (mem_of_lookup found) member rfl
    rw [(Prod.mk.inj same).2]

/-- Two names of one entry are one, where no entry is there twice. -/
theorem lookup_unique (distinct : (table.map Prod.snd).Nodup) (found : table.lookup name = some entry)
    (found' : table.lookup other = some entry) : name = other :=
  (Prod.mk.inj (List.inj_on_of_nodup_map distinct (mem_of_lookup found) (mem_of_lookup found') rfl)).1

theorem lookedUp_eq_ok : lookedUp table what name = .ok entry ↔ table.lookup name = some entry := by
  unfold lookedUp
  cases table.lookup name <;> simp

/-- A name too long to quote is refused in the words of any other. -/
theorem lookedUp_long (short : ∀ entry ∈ table, entry.1.length ≤ maxNameShown)
    (long : maxNameShown < name.length) (long' : maxNameShown < other.length) :
    ∃ e, lookedUp table what name = .error e ∧ lookedUp table what other = .error e := by
  have absent {name : Str} (long : maxNameShown < name.length) : table.lookup name = none := by
    refine List.lookup_eq_none_iff.mpr fun entry member => bne_iff_ne.mpr ?_
    rintro rfl
    exact absurd (short entry member) (Nat.not_le.mpr long)
  rw [lookedUp, lookedUp, absent long, absent long', quotedName, quotedName, if_pos long, if_pos long']
  exact ⟨_, rfl, rfl⟩

/-- The two vocabularies translate each other. -/
theorem networkFromChain_eq_ok {chain network : Str} :
    networkFromChain chain = .ok network ↔ chainFromNetwork network = .ok chain := by
  rw [networkFromChain, chainFromNetwork, lookedUp_eq_ok, lookedUp_eq_ok]
  constructor
  · intro found
    obtain ⟨⟨first, second⟩, member, same⟩ := List.mem_map.mp (mem_of_lookup found)
    obtain ⟨rfl, rfl⟩ := Prod.mk.inj same
    exact lookup_of_mem (by decide) member
  · intro found
    exact lookup_of_mem (by decide) (List.mem_map_of_mem (mem_of_lookup found))

/-- Every table has the same chains. -/
theorem exists_chain {chain : Str} {port : Nat} (found : portTable.lookup chain = some port) :
    (∃ subdir, subdirTable.lookup chain = some subdir) ∧
      (∃ magic, magicTable.lookup chain = some magic) ∧
      ∃ network, networkTable.lookup chain = some network := by
  have known : ∀ entry ∈ portTable, (subdirTable.lookup entry.1).isSome ∧
      (magicTable.lookup entry.1).isSome ∧ (networkTable.lookup entry.1).isSome := by decide
  simpa only [Option.isSome_iff_exists] using known _ (mem_of_lookup found)

end Tables

/-! ### The address of a chain -/

section Loopback

variable {lib : Urlparse} {chain other : Str} {port port' : Nat}

/-- The address a session keys the loopback port by. -/
def loopbackKey (port : Nat) : Key := (str "http", str "127.0.0.1", port)

def loopbackParts (port : Nat) : UrlText.Parts :=
  ⟨str "http", str "127.0.0.1:" ++ natText port, [], [], []⟩

theorem port_of_limit {parts : UrlText.Parts} {limit : Nat} (limited : limit = 0 ∨ 640 ≤ limit)
    (read : parts.port 640 = some (some port)) : parts.port limit = some (some port) := by
  unfold UrlText.Parts.port at read ⊢
  split at read
  · cases read
  · cases read
  rename_i digits _ _
  split_ifs at read with taken
  simp only [Bool.and_eq_true, Bool.or_eq_true, decide_eq_true_eq, beq_iff_eq] at taken
  obtain ⟨⟨decimal, none_ | short⟩, small⟩ := taken
  · cases none_
  · have admitted : (limit == 0 || decide (digits.length ≤ limit)) = true := by
      simp only [Bool.or_eq_true, decide_eq_true_eq, beq_iff_eq]
      omega
    rw [decimal, admitted, decide_eq_true small]
    exact read

/-- The url of a chain is accepted, `int` reading a port whatever its limit is set to. -/
theorem loopback_accepted (limit : lib.digitLimit = 0 ∨ 640 ≤ lib.digitLimit)
    (found : portTable.lookup chain = some port) :
    Accepted lib (loopbackUrl port) (loopbackParts port) (str "127.0.0.1") (some port) := by
  have member : port ∈ portTable.map Prod.snd := List.mem_map_of_mem (mem_of_lookup found)
  have splits : ∀ port ∈ portTable.map Prod.snd, lib.urlsplit (loopbackUrl port) =
      some (loopbackParts port) := by
    simp only [portTable, List.map_cons, List.map_nil, List.forall_mem_cons]
    exact ⟨rfl, rfl, rfl, rfl, rfl, nofun⟩
  have reads : ∀ port ∈ portTable.map Prod.snd,
      (∀ code ∈ loopbackUrl port, 0x20 < code ∧ code < 0x7F) ∧
        (loopbackParts port).port 640 = some (some port) ∧
        (loopbackParts port).hostname = some (str "127.0.0.1") ∧
        (loopbackParts port).username = none ∧ (loopbackParts port).password = none := by
    decide +kernel
  obtain ⟨printable, read, host, username, password⟩ := reads port member
  exact ⟨⟨printable, splits port member, .inl rfl, username, password, host,
    port_of_limit limit read⟩, rfl, rfl⟩

theorem loopback_key (limit : lib.digitLimit = 0 ∨ 640 ≤ lib.digitLimit)
    (found : portTable.lookup chain = some port) :
    ∃ parts, splitUrl lib.urllib (loopbackUrl port) = .ok parts ∧ parts.key = loopbackKey port := by
  refine ⟨_, (loopback_accepted limit found).splitUrl, ?_⟩
  have positive : ∀ entry ∈ portTable, entry.2 ≠ 0 := by decide
  obtain ⟨count, rfl⟩ := Nat.exists_eq_succ_of_ne_zero (positive _ (mem_of_lookup found))
  rfl

/-- Two chains have two urls. -/
theorem loopbackUrl_unique (found : portTable.lookup chain = some port)
    (found' : portTable.lookup other = some port') (same : loopbackUrl port = loopbackUrl port') :
    chain = other := by
  have apart : ∀ entry ∈ portTable, ∀ entry' ∈ portTable,
      loopbackUrl entry.2 = loopbackUrl entry'.2 → entry.1 = entry'.1 := by decide +kernel
  exact apart _ (mem_of_lookup found) _ (mem_of_lookup found') same

end Loopback

/-! ### The cookie file of a chain -/

section Derived

variable {flavour : Flavour} {platform : Platform} {chain other subdir subdir' : Str}
  {datadir : flavour.Path}

theorem isName_of_codes {segment : Str} (plain : segment.all Paths.isPlain = true)
    (lettered : segment.any Paths.isLetter = true) : IsName segment :=
  ⟨List.all_eq_true.mp plain, List.any_eq_true.mp lettered⟩

/-- What is below the base of a platform is names. -/
theorem datadir_names (name : Str) :
    ∀ segment ∈ ((datadirTable.lookup name).getD datadirElsewhere).2, IsName segment := by
  have known : ∀ entry ∈ datadirElsewhere :: datadirTable.map Prod.snd, ∀ segment ∈ entry.2,
      segment.all Paths.isPlain = true ∧ segment.any Paths.isLetter = true := by decide
  have listed : (datadirTable.lookup name).getD datadirElsewhere ∈
      datadirElsewhere :: datadirTable.map Prod.snd := by
    cases found : datadirTable.lookup name with
    | none => exact List.mem_cons_self
    | some entry => exact List.mem_cons_of_mem _ (List.mem_map_of_mem (mem_of_lookup found))
  intro segment member
  obtain ⟨plain, lettered⟩ := known _ listed segment member
  exact isName_of_codes plain lettered

/-- A datadir is absolute, whatever the home and the environment hold. -/
theorem defaultDatadir_absolute (lawful : flavour.Lawful)
    (found : defaultDatadir flavour platform = some datadir) : flavour.isAbsolute datadir = true := by
  unfold defaultDatadir at found
  dsimp only at found
  split at found
  · split_ifs at found with absolute
    cases found
    exact lawful.absolute_foldl absolute (datadir_names platform.name)
  · cases found

theorem subdir_cases (found : subdirTable.lookup chain = some subdir) : subdir = [] ∨ IsName subdir := by
  have known : ∀ entry ∈ subdirTable, entry.2 = [] ∨
      entry.2.all Paths.isPlain = true ∧ entry.2.any Paths.isLetter = true := by decide
  exact (known _ (mem_of_lookup found)).imp_right fun codes => isName_of_codes codes.1 codes.2

theorem cookie_isName : IsName (str ".cookie") := isName_of_codes (by decide) (by decide)

theorem absolute_subdir (lawful : flavour.Lawful) (absolute : flavour.isAbsolute datadir = true)
    (found : subdirTable.lookup chain = some subdir) :
    flavour.isAbsolute (flavour.join datadir subdir) = true := by
  rcases subdir_cases found with rfl | name
  · rwa [lawful.join_nil]
  · exact lawful.absolute_join absolute name

/-- Below one datadir two chains have two cookie files. -/
theorem cookie_unique (lawful : flavour.Lawful) (absolute : flavour.isAbsolute datadir = true)
    (found : subdirTable.lookup chain = some subdir) (found' : subdirTable.lookup other = some subdir')
    (same : flavour.join (flavour.join datadir subdir) (str ".cookie") =
      flavour.join (flavour.join datadir subdir') (str ".cookie")) : chain = other := by
  have above := (lawful.join_inj (absolute_subdir lawful absolute found)
    (absolute_subdir lawful absolute found') cookie_isName cookie_isName same).1
  have subdirs : subdir = subdir' := by
    rcases subdir_cases found with rfl | name
    all_goals rcases subdir_cases found' with rfl | name'
    · rfl
    · exact absurd ((lawful.join_nil datadir).symm.trans above).symm (lawful.join_ne absolute name')
    · exact absurd (above.trans (lawful.join_nil datadir)) (lawful.join_ne absolute name)
    · exact (lawful.join_inj absolute absolute name name' above).2
  subst subdirs
  exact lookup_unique (by decide) found found'

end Derived

/-! ### Who is calling -/

section Callers

variable {flavour : Flavour} {platform : Platform} {lib : Urlparse} {chain : Str}
  {user password cookiePath : Option Str} {timeout : Timeout} {transport : Transport}
  {verifyChain : Bool} {signetChallenge : Option Challenge} {client : RpcClient}

/-- The cookie path of a client built for who is said to be calling: none beside a user and a
password, the one given, or else the chain's below an absolute datadir. -/
inductive Identified (flavour : Flavour) (platform : Platform) (chain : Str) :
    Option Str → Option Str → Option Str → Option Str → Prop
  | login {user : Str} (password : Str) (whole : 0x3A ∉ user) :
    Identified flavour platform chain (some user) (some password) none none
  | file (path : Str) : Identified flavour platform chain none none (some path)
      (some (flavour.written path))
  | derived {datadir : flavour.Path} {subdir : Str}
    (found : defaultDatadir flavour platform = some datadir)
    (below : subdirTable.lookup chain = some subdir)
    (absolute : flavour.isAbsolute (flavour.join (flavour.join datadir subdir) (str ".cookie")) = true) :
    Identified flavour platform chain none none none
      (some (flavour.text (flavour.join (flavour.join datadir subdir) (str ".cookie"))))

/-- The client of the local node of a chain. -/
structure LocalNode (flavour : Flavour) (platform : Platform) (chain : Str)
    (user password cookiePath : Option Str) (timeout : Timeout) (transport : Transport)
    (client : RpcClient) : Prop where
  url : ∃ port, portTable.lookup chain = some port ∧ client.url = loopbackUrl port
  identified : Identified flavour platform chain user password cookiePath client.cookiePath
  waits : 0 < timeout.seconds ∧ timeout.seconds ≤ maxTimeout
  told : client.user = user ∧ client.password = password ∧ client.timeout = timeout ∧
    client.transport = transport

/-- A challenge is for a check that is asked for. -/
def CheckAsked (verifyChain : Bool) (signetChallenge : Option Challenge) : Prop :=
  signetChallenge.isSome = true → verifyChain = true

/-- What the constructor takes of who is calling, the url being one that is accepted. -/
theorem new_eq_ok_iff {url : Str} (checked : checkedUrl lib .rpc url = .ok url) :
    RpcClient.new flavour lib url user password cookiePath timeout transport = .ok client ↔
      client = ⟨url, user, password, cookiePath.map flavour.written, timeout, transport⟩ ∧
        (0 < timeout.seconds ∧ timeout.seconds ≤ maxTimeout) ∧
        ((∃ name secret, user = some name ∧ password = some secret ∧ cookiePath = none ∧
            0x3A ∉ name) ∨
          ∃ path, user = none ∧ password = none ∧ cookiePath = some path) := by
  unfold RpcClient.new assertValidTimeout
  simp only [checked]
  by_cases waits : 0 < timeout.seconds ∧ timeout.seconds ≤ maxTimeout
  · cases user <;> cases password <;> cases cookiePath
    all_goals simp [waits, eq_comm]
    split_ifs with colon <;> simp [colon]
  · cases user <;> cases password <;> cases cookiePath
    all_goals simp [waits]
    split_ifs <;> exact nofun

/-- The cookie path passed on is one for who is said to be calling, and the only one. -/
theorem identified_iff (lawful : flavour.Lawful) {subdir : Str} {cookie : Option Str}
    (known : subdirTable.lookup chain = some subdir) :
    Identified flavour platform chain user password cookiePath cookie ↔
      ∃ passed, localCookiePath flavour platform chain user password cookiePath = .ok passed ∧
        cookie = passed.map flavour.written ∧
        ((∃ name secret, user = some name ∧ password = some secret ∧ passed = none ∧ 0x3A ∉ name) ∨
          ∃ path, user = none ∧ password = none ∧ passed = some path) := by
  have below {datadir : flavour.Path} : cookiePathFromChain flavour platform chain (some datadir) =
      .ok (flavour.join (flavour.join datadir subdir) (str ".cookie")) := by
    show (do
      let subdir ← datadirSubdirFromChain chain
      return flavour.join (flavour.join datadir subdir) (str ".cookie")) = _
    rw [datadirSubdirFromChain, lookedUp_eq_ok.mpr known]
    rfl
  constructor
  · intro identified
    cases identified with
    | login password whole => exact ⟨none, rfl, rfl, .inl ⟨_, _, rfl, rfl, rfl, whole⟩⟩
    | file path => exact ⟨some path, rfl, rfl, .inr ⟨path, rfl, rfl, rfl⟩⟩
    | derived found there absolute =>
      cases known.symm.trans there
      refine ⟨some _, ?_, congrArg some (lawful.written_text _).symm, .inr ⟨_, rfl, rfl, rfl⟩⟩
      rw [localCookiePath, if_pos ⟨rfl, rfl, rfl⟩, found]
      dsimp only
      rw [below]
      rfl
  · rintro ⟨passed, given, rfl, ⟨name, secret, rfl, rfl, rfl, whole⟩ | ⟨path, rfl, rfl, rfl⟩⟩
    · cases given
      exact .login secret whole
    · cases cookiePath with
      | some path' =>
        cases given
        exact .file path
      | none =>
        rw [localCookiePath, if_pos ⟨rfl, rfl, rfl⟩] at given
        split at given
        · cases given
        · rename_i datadir found
          rw [below] at given
          cases given
          rw [Option.map_some, lawful.written_text]
          exact .derived found known (lawful.absolute_join
            (absolute_subdir lawful (defaultDatadir_absolute lawful found) known) cookie_isName)

/-- A client is built exactly for who is said to be calling, and it is the one of the chain. -/
theorem localNode_eq_ok (lawful : flavour.Lawful) (limit : lib.digitLimit = 0 ∨ 640 ≤ lib.digitLimit) :
    RpcClient.localNode flavour platform lib chain user password cookiePath timeout transport
        verifyChain signetChallenge = .ok client ↔
      CheckAsked verifyChain signetChallenge ∧
        LocalNode flavour platform chain user password cookiePath timeout transport client := by
  constructor
  · intro built
    obtain ⟨port, known, afterPort⟩ := bind_eq_ok built
    have found := lookedUp_eq_ok.mp known
    obtain ⟨⟨subdir, below⟩, _⟩ := exists_chain found
    split_ifs at afterPort with unasked
    obtain ⟨cookie, passed, made⟩ := bind_eq_ok afterPort
    obtain ⟨rfl, waits, ways⟩ :=
      (new_eq_ok_iff (checkedUrl_of_accepted (loopback_accepted limit found))).mp made
    exact ⟨fun given => not_not.mp fun off => unasked ⟨given, off⟩, ⟨port, found, rfl⟩,
      (identified_iff lawful below).mpr ⟨cookie, passed, rfl, ways⟩, waits, rfl, rfl, rfl, rfl⟩
  · rintro ⟨asked, ⟨port, found, url⟩, identified, waits, told⟩
    obtain ⟨⟨subdir, below⟩, _⟩ := exists_chain found
    obtain ⟨cookie, passed, written, ways⟩ := (identified_iff lawful below).mp identified
    have same : client = ⟨loopbackUrl port, user, password, cookie.map flavour.written, timeout,
        transport⟩ := by
      obtain ⟨url', user', password', cookie', timeout', transport'⟩ := client
      obtain ⟨rfl, rfl, rfl, rfl⟩ := told
      cases url
      cases written
      rfl
    have made := (new_eq_ok_iff (checkedUrl_of_accepted (loopback_accepted limit found))).mpr
      ⟨same, waits, ways⟩
    rw [RpcClient.localNode, rpcPortFromChain, lookedUp_eq_ok.mpr found]
    show (if _ then _ else _) = _
    rw [if_neg fun ⟨given, off⟩ => off (asked given), passed]
    exact made

/-- Whatever is not built is refused as the caller's. -/
theorem localNode_cases (flavour : Flavour) (platform : Platform) (lib : Urlparse) (chain : Str)
    (user password cookiePath : Option Str) (timeout : Timeout) (transport : Transport)
    (verifyChain : Bool) (signetChallenge : Option Challenge) :
    (∃ client, RpcClient.localNode flavour platform lib chain user password cookiePath timeout
        transport verifyChain signetChallenge = .ok client) ∨
      ∃ message, RpcClient.localNode flavour platform lib chain user password cookiePath timeout
        transport verifyChain signetChallenge = .error (.btcRpcValueError message) := by
  have looked {α : Type} {table : List (Str × α)} {what name : Str} {e : Exc}
      (raised : lookedUp table what name = .error e) : ∃ message, e = .btcRpcValueError message := by
    unfold lookedUp at raised
    split at raised <;> cases raised
    exact ⟨_, rfl⟩
  have derived {e : Exc} (raised : localCookiePath flavour platform chain user password cookiePath =
      .error e) : ∃ message, e = .btcRpcValueError message := by
    unfold localCookiePath at raised
    split_ifs at raised
    split at raised
    · cases raised
      exact ⟨_, rfl⟩
    · rcases bind_eq_error raised with below | ⟨_, _, ended⟩
      · rcases bind_eq_error below with absent | ⟨_, _, ended⟩
        · exact looked absent
        · cases ended
      · cases ended
  have made {url : Str} {cookie : Option Str} {e : Exc}
      (raised : RpcClient.new flavour lib url user password cookie timeout transport = .error e) :
      ∃ message, e = .btcRpcValueError message := by
    unfold RpcClient.new assertValidTimeout at raised
    rcases checkedUrl_cases lib .rpc url with checked | ⟨message, refused⟩
    · rw [checked] at raised
      dsimp only at raised
      split_ifs at raised <;> cases raised <;> exact ⟨_, rfl⟩
    · rw [refused] at raised
      cases raised
      exact ⟨_, rfl⟩
  cases outcome : RpcClient.localNode flavour platform lib chain user password cookiePath timeout
    transport verifyChain signetChallenge with
  | ok client => exact .inl ⟨client, rfl⟩
  | error e =>
    suffices ∃ message, e = .btcRpcValueError message by
      obtain ⟨message, rfl⟩ := this
      exact .inr ⟨message, rfl⟩
    rcases bind_eq_error outcome with unknown | ⟨port, _, afterPort⟩
    · exact looked unknown
    split_ifs at afterPort
    · cases afterPort
      exact ⟨_, rfl⟩
    · rcases bind_eq_error afterPort with nowhere | ⟨cookie, _, afterCookie⟩
      · exact derived nowhere
      · exact made afterCookie

/-- The rest client of a chain is at the url of the rpc client. -/
theorem restFromChain_eq_ok {restClient : RestClient}
    (limit : lib.digitLimit = 0 ∨ 640 ≤ lib.digitLimit) :
    RestClient.fromChain lib chain timeout transport = .ok restClient ↔
      (0 < timeout.seconds ∧ timeout.seconds ≤ maxTimeout) ∧ ∃ port,
        portTable.lookup chain = some port ∧ restClient = ⟨loopbackUrl port, timeout, transport⟩ := by
  constructor
  · intro built
    obtain ⟨port, known, made⟩ := bind_eq_ok built
    obtain ⟨rfl, _, waits⟩ := RestClient.new_eq_ok made
    exact ⟨waits, port, lookedUp_eq_ok.mp known, rfl⟩
  · rintro ⟨waits, port, found, rfl⟩
    have checked := @checkedUrl_of_accepted lib .rest _ _ _ _ (loopback_accepted limit found)
    rw [RestClient.fromChain, rpcPortFromChain, lookedUp_eq_ok.mpr found]
    show RestClient.new lib (loopbackUrl port) timeout transport = _
    rw [RestClient.new, checked]
    simp only [assertValidTimeout, if_pos waits]

end Callers

/-! ### Where the check goes -/

section Reaching

variable {world : World} {key : Key} {url : Str} {parts : Url} {session : Session}

theorem urlopenTransport_trace (world : World) (request : Request) (timeout : Timeout)
    (maxBodySize : Int) (session : Session) :
    (urlopenTransport world request timeout maxBodySize session).2.trace = session.trace := by
  unfold urlopenTransport
  split
  · rfl
  split
  · rfl
  split
  · rfl
  dsimp only
  split
  · rfl
  split_ifs
  · split <;> rfl
  · rfl

theorem readSent_trace (world : World) (where_ : Str) (deadline : ℚ) (maxBodySize : Int) (sent : Sent)
    (session : Session) : (readSent world where_ deadline maxBodySize sent session).2.trace =
      session.trace := by
  cases sent with
  | answered status body =>
    simp only [readSent]
    split_ifs <;> rfl
  | raised e =>
    simp only [readSent]
    split_ifs <;> rfl
  | httpError response =>
    simp only [readSent]
    split
    · rfl
    · split_ifs <;> rfl

theorem transportCall_session (world : World) (request : Request) (timeout : Timeout)
    (maxBodySize : Int) (session : Session) :
    (Transport.call world request timeout maxBodySize session .session).2 =
      (session.send world request timeout maxBodySize).2 := by
  rw [Transport.call]
  rcases session.send world request timeout maxBodySize with ⟨e | ⟨status, body⟩, after⟩ <;> rfl

/-- A request goes to the address its url is split into, whatever carries it. -/
theorem Reaches.httpRequest (idle : session.Idle) (split : splitUrl world.urllib url = .ok parts)
    (data : Option Bytes) (headers : List (Str × Str)) (timeout : Timeout) (maxBodySize : Int)
    (transport : Transport) :
    Reaches parts.key session
      (BitcoinCoreRpc.httpRequest world url data headers timeout maxBodySize transport session).2 := by
  unfold BitcoinCoreRpc.httpRequest
  rcases assertValidMaxBodySize maxBodySize with e | _
  · exact .of_same rfl
  rcases assertValidTimeout timeout (str "http timeout") with e | _
  · exact .of_same rfl
  rcases assertValidHeaders headers with e | _
  · exact .of_same rfl
  simp only [split, Session.monotonic]
  refine Reaches.trans ?_ (.of_same (readSent_trace _ _ _ _ _ _))
  have started : Session.Idle session.ticked := idle
  refine Reaches.trans (.of_same rfl : Reaches parts.key session session.ticked) ?_
  cases transport with
  | urlopen => exact .of_same (urlopenTransport_trace _ _ _ _ _)
  | own answer => exact .of_same rfl
  | session =>
    have reached := Reaches.send started
      ⟨url, if data.isSome then str "POST" else str "GET", world.urllib.selector url, data, headers⟩
      timeout maxBodySize split
    rw [transportCall_session]
    exact reached

/-- So does the check of a chain, which makes one request at most. -/
theorem Reaches.assertChain {client : RpcClient} (idle : session.Idle)
    (split : splitUrl world.urllib client.url = .ok parts) (hexError : Str → Str) (frames : Nat)
    (cookie : CookieFile) (requestId chain : Str) (signetChallenge : Option Challenge) :
    Reaches parts.key session (client.assertChain world hexError frames cookie requestId chain
      signetChallenge session).2 := by
  have called : Reaches parts.key session (client.call world RpcClient.chainInfoHeap frames cookie
      requestId 0 1 none RpcClient.defaultMaxBodySize session).2 := by
    unfold RpcClient.call
    split
    · exact .of_same rfl
    rename_i name body timeout built
    split
    · exact .of_same rfl
    rename_i authorization authorized
    have reached := Reaches.httpRequest idle split (some body) (RpcClient.headers authorization) timeout
      RpcClient.defaultMaxBodySize client.transport
    split
    all_goals
      rename_i carried
      rw [carried] at reached
      exact reached
  unfold RpcClient.assertChain rpcAssertChain BitcoinCoreRpc.assertChain
  split
  · exact .of_same rfl
  split
  all_goals
    rename_i answered
    rw [answered] at called
    exact called

/-- The check returns when the one call it makes is answered by a node of the chain. -/
theorem assertChain_eq_ok {client : RpcClient} {hexError : Str → Str} {frames : Nat}
    {cookie : CookieFile} {requestId chain : Str} {signetChallenge : Option Challenge}
    {after : Session} :
    client.assertChain world hexError frames cookie requestId chain signetChallenge session =
        (.ok (), after) ↔
      ∃ result, client.call world RpcClient.chainInfoHeap frames cookie requestId 0 1 none
          RpcClient.defaultMaxBodySize session = (.ok result, after) ∧
        ¬ Misasked chain signetChallenge ∧ Serves chain signetChallenge result := by
  have decided {result : Json} := @chainDecision_eq_ok world.py hexError
    (str "getblockchaininfo at " ++ client.url) client.url chain result signetChallenge
  unfold RpcClient.assertChain rpcAssertChain BitcoinCoreRpc.assertChain
  cases meant : expectedMagic hexError chain signetChallenge with
  | error e =>
    simp only [chainDecision, meant] at decided
    refine iff_of_false (by rintro ⟨⟩) ?_
    rintro ⟨result, _, agrees⟩
    cases decided.mpr agrees
  | ok expected =>
    simp only [chainDecision, meant] at decided
    rcases client.call world RpcClient.chainInfoHeap frames cookie requestId 0 1 none
      RpcClient.defaultMaxBodySize session with ⟨e | result, reached⟩
    · exact iff_of_false (by rintro ⟨⟩) (by rintro ⟨_, ⟨⟩, _⟩)
    · constructor
      · intro returned
        obtain ⟨accepted, rfl⟩ := Prod.mk.inj returned
        exact ⟨result, rfl, decided.mp accepted⟩
      · rintro ⟨_, ⟨⟩, agrees⟩
        exact Prod.ext (decided.mpr agrees) rfl

end Reaching

/-! ### What the transport is asked -/

/-- One request at most is handed to the transport, and it is to `url`: any two that do the same with
that one come to the same. -/
def AsksOnly {α : Type} (world : World) (url : Str) (run : Transport → α) : Prop :=
  ∃ (request : Request) (timeout : Timeout) (maxBodySize : Int) (session : Session),
    request.fullUrl = url ∧ ∀ transport other : Transport,
      transport.call world request timeout maxBodySize session =
        other.call world request timeout maxBodySize session → run transport = run other

section Asking

variable {α β : Type} {world : World} {url : Str} {run : Transport → α}

theorem AsksOnly.of_const (answer : α) : AsksOnly world url fun _ => answer :=
  ⟨⟨url, [], [], none, []⟩, ⟨0, []⟩, 0, .new, rfl, fun _ _ _ => rfl⟩

/-- What is made of what a transport comes to is made of nothing more. -/
theorem AsksOnly.of_eq {made : Transport → β} (asks : AsksOnly world url run)
    (follows : ∀ transport other, run transport = run other → made transport = made other) :
    AsksOnly world url made := by
  obtain ⟨request, timeout, maxBodySize, session, addressed, same⟩ := asks
  exact ⟨request, timeout, maxBodySize, session, addressed,
    fun transport other agree => follows _ _ (same transport other agree)⟩

theorem AsksOnly.httpRequest (data : Option Bytes) (headers : List (Str × Str)) (timeout : Timeout)
    (maxBodySize : Int) (session : Session) : AsksOnly world url fun transport =>
      BitcoinCoreRpc.httpRequest world url data headers timeout maxBodySize transport session := by
  unfold BitcoinCoreRpc.httpRequest
  rcases assertValidMaxBodySize maxBodySize with e | _
  · exact .of_const _
  rcases assertValidTimeout timeout (str "http timeout") with e | _
  · exact .of_const _
  rcases assertValidHeaders headers with e | _
  · exact .of_const _
  rcases splitUrl world.urllib url with e | parts
  · exact .of_const _
  refine ⟨⟨url, if data.isSome then str "POST" else str "GET", world.urllib.selector url, data, headers⟩,
    timeout, maxBodySize, session.ticked, rfl, fun transport other agree => ?_⟩
  simp only [Session.monotonic, agree]

theorem AsksOnly.call (client : RpcClient) (heap : Heap) (frames : Nat) (cookie : CookieFile)
    (requestId : Str) (method params : Ref) (requestTimeout : Option Timeout) (maxBodySize : Int)
    (session : Session) : AsksOnly world client.url fun transport => RpcClient.call world heap frames
      { client with transport := transport } cookie requestId method params requestTimeout maxBodySize
      session := by
  have built (transport : Transport) : RpcClient.request world.py heap frames
      { client with transport := transport } requestId method params requestTimeout =
        client.request world.py heap frames requestId method params requestTimeout := rfl
  have authorized (transport : Transport) :
      RpcClient.authHeader { client with transport := transport } cookie = client.authHeader cookie := rfl
  unfold RpcClient.call
  simp only [built, authorized]
  rcases client.request world.py heap frames requestId method params requestTimeout with
    e | ⟨name, body, timeout⟩
  · exact .of_const _
  rcases client.authHeader cookie with e | authorization
  · exact .of_const _
  refine (AsksOnly.httpRequest (some body) (RpcClient.headers authorization) timeout maxBodySize
    session).of_eq fun transport other same => ?_
  simp only [same]

theorem AsksOnly.assertChain (client : RpcClient) (hexError : Str → Str) (frames : Nat)
    (cookie : CookieFile) (requestId chain : Str) (signetChallenge : Option Challenge)
    (session : Session) : AsksOnly world client.url fun transport =>
      RpcClient.assertChain world hexError frames { client with transport := transport } cookie requestId
        chain signetChallenge session := by
  refine (AsksOnly.call client RpcClient.chainInfoHeap frames cookie requestId 0 1 none
    RpcClient.defaultMaxBodySize session).of_eq fun transport other same => ?_
  simp only [RpcClient.assertChain, rpcAssertChain, BitcoinCoreRpc.assertChain, same]

/-- The transport has no part in what is built around it. -/
theorem localNode_transport (flavour : Flavour) (platform : Platform) (lib : Urlparse) (chain : Str)
    (user password cookiePath : Option Str) (timeout : Timeout) (transport : Transport)
    (verifyChain : Bool) (signetChallenge : Option Challenge) :
    RpcClient.localNode flavour platform lib chain user password cookiePath timeout transport
        verifyChain signetChallenge =
      (RpcClient.localNode flavour platform lib chain user password cookiePath timeout .urlopen
        verifyChain signetChallenge).map fun client => { client with transport := transport } := by
  have made (url : Str) (cookiePath : Option Str) :
      RpcClient.new flavour lib url user password cookiePath timeout transport =
        (RpcClient.new flavour lib url user password cookiePath timeout .urlopen).map
          fun client => { client with transport := transport } := by
    unfold RpcClient.new
    cases checkedUrl lib .rpc url with
    | error e => rfl
    | ok url =>
      dsimp only
      split_ifs
      · rfl
      · rfl
      · rfl
      · rfl
      · cases assertValidTimeout timeout (str "rpc timeout") <;> rfl
  unfold RpcClient.localNode
  rcases rpcPortFromChain chain with e | port
  · rfl
  simp only [bind, Except.bind, made]
  split_ifs
  · rfl
  · rcases localCookiePath flavour platform chain user password cookiePath with e | cookie <;> rfl

end Asking

section Whole

variable {flavour : Flavour} {platform : Platform} {lib : Urlparse} {world : World}
  {hexError : Str → Str} {frames : Nat} {files : Str → CookieFile} {requestId chain other : Str}
  {user password cookiePath : Option Str} {timeout : Timeout} {transport : Transport}
  {verifyChain : Bool} {signetChallenge : Option Challenge} {session after : Session}
  {client client' : RpcClient}

theorem fromChain_eq_ok (lawful : flavour.Lawful) (limit : lib.digitLimit = 0 ∨ 640 ≤ lib.digitLimit) :
    RpcClient.fromChain flavour platform lib world hexError frames files requestId chain user password
        cookiePath timeout transport verifyChain signetChallenge session = (.ok client, after) ↔
      CheckAsked verifyChain signetChallenge ∧
        LocalNode flavour platform chain user password cookiePath timeout transport client ∧
        if verifyChain then
          ∃ result, client.call world RpcClient.chainInfoHeap frames
              (files (client.cookiePath.getD [])) requestId 0 1 none RpcClient.defaultMaxBodySize
              session = (.ok result, after) ∧
            ¬ Misasked chain signetChallenge ∧ Serves chain signetChallenge result
        else after = session := by
  rw [← and_assoc, ← localNode_eq_ok lawful limit, RpcClient.fromChain]
  rcases RpcClient.localNode flavour platform lib chain user password cookiePath timeout transport
    verifyChain signetChallenge with e | built
  · exact iff_of_false (by rintro ⟨⟩) (by rintro ⟨⟨⟩, _⟩)
  dsimp only
  rw [Except.ok.injEq]
  split_ifs
  · constructor
    · intro returned
      split at returned
      · cases returned
      · rename_i checked
        cases returned
        exact ⟨rfl, assertChain_eq_ok.mp checked⟩
    · rintro ⟨rfl, agrees⟩
      rw [assertChain_eq_ok.mpr agrees]
  · rw [Prod.mk.injEq, Except.ok.injEq, eq_comm (b := after)]

theorem fromChain_refused (lawful : flavour.Lawful)
    (limit : lib.digitLimit = 0 ∨ 640 ≤ lib.digitLimit)
    (refused : ¬ CheckAsked verifyChain signetChallenge ∨
      ¬ ∃ client, LocalNode flavour platform chain user password cookiePath timeout transport client) :
    ∃ message, RpcClient.fromChain flavour platform lib world hexError frames files requestId chain
      user password cookiePath timeout transport verifyChain signetChallenge session =
        (.error (.btcRpcValueError message), session) := by
  rcases localNode_cases flavour platform lib chain user password cookiePath timeout transport
    verifyChain signetChallenge with ⟨client, built⟩ | ⟨message, raised⟩
  · obtain ⟨asked, here⟩ := (localNode_eq_ok lawful limit).mp built
    exact (refused.elim (· asked) (· ⟨client, here⟩)).elim
  · exact ⟨message, by rw [RpcClient.fromChain, raised]⟩

theorem fromChain_long (long : maxNameShown < chain.length) (long' : maxNameShown < other.length) :
    RpcClient.fromChain flavour platform lib world hexError frames files requestId chain user password
        cookiePath timeout transport verifyChain signetChallenge session =
      RpcClient.fromChain flavour platform lib world hexError frames files requestId other user
        password cookiePath timeout transport verifyChain signetChallenge session := by
  have short : ∀ entry ∈ portTable, entry.1.length ≤ maxNameShown := by decide
  obtain ⟨e, unknown, unknown'⟩ := @lookedUp_long Nat portTable (str "Core chain") _ _ short long long'
  have same {chain : Str} (raised : rpcPortFromChain chain = .error e) :
      RpcClient.localNode flavour platform lib chain user password cookiePath timeout transport
        verifyChain signetChallenge = .error e := by
    rw [RpcClient.localNode, raised]
    rfl
  rw [RpcClient.fromChain, RpcClient.fromChain, same unknown, same unknown']

theorem Reaches.fromChain {port : Nat} (lawful : flavour.Lawful)
    (limit : lib.digitLimit = 0 ∨ 640 ≤ lib.digitLimit) (library : world.urllib = lib.urllib)
    (idle : session.Idle) (found : portTable.lookup chain = some port) :
    Reaches (loopbackKey port) session (RpcClient.fromChain flavour platform lib world hexError frames
      files requestId chain user password cookiePath timeout transport verifyChain signetChallenge
      session).2 := by
  rw [RpcClient.fromChain]
  cases built : RpcClient.localNode flavour platform lib chain user password cookiePath timeout
    transport verifyChain signetChallenge with
  | error e => exact .of_same rfl
  | ok client =>
    obtain ⟨_, ⟨port', found', url⟩, _⟩ := (localNode_eq_ok lawful limit).mp built
    cases found.symm.trans found'
    obtain ⟨parts, split, keyed⟩ := loopback_key limit found
    rw [← library, ← url] at split
    have reached := Reaches.assertChain idle split hexError frames
      (files (client.cookiePath.getD [])) requestId chain signetChallenge
    rw [keyed] at reached
    dsimp only
    split_ifs
    · split
      all_goals
        rename_i checked
        rw [checked] at reached
        exact reached
    · exact .of_same rfl

/-- Whatever the transport, it is handed one request at most, to the loopback url of the chain. -/
theorem AsksOnly.fromChain {port : Nat} (lawful : flavour.Lawful)
    (limit : lib.digitLimit = 0 ∨ 640 ≤ lib.digitLimit) (found : portTable.lookup chain = some port) :
    AsksOnly world (loopbackUrl port) fun transport =>
      let run := RpcClient.fromChain flavour platform lib world hexError frames files requestId chain
        user password cookiePath timeout transport verifyChain signetChallenge session
      (run.1.map RpcClient.url, run.2) := by
  have placed (transport : Transport) := localNode_transport flavour platform lib chain user password
    cookiePath timeout transport verifyChain signetChallenge
  unfold RpcClient.fromChain
  cases built : RpcClient.localNode flavour platform lib chain user password cookiePath timeout
    .urlopen verifyChain signetChallenge with
  | error e =>
    rw [built] at placed
    simp only [placed, Except.map]
    exact .of_const _
  | ok client =>
    rw [built] at placed
    obtain ⟨_, ⟨port', found', url⟩, _⟩ := (localNode_eq_ok lawful limit).mp built
    cases found.symm.trans found'
    simp only [placed, Except.map]
    split_ifs
    · rw [← url]
      refine (AsksOnly.assertChain client hexError frames (files (client.cookiePath.getD [])) requestId
        chain signetChallenge session).of_eq fun transport other same => ?_
      simp only [same]
      rcases RpcClient.assertChain world hexError frames { client with transport := other }
        (files (client.cookiePath.getD [])) requestId chain signetChallenge session with ⟨_ | _, _⟩ <;> rfl
    · exact .of_const (Except.ok client.url, session)

/-- The clients of two chains share neither an address nor a derived cookie file. -/
theorem localNode_apart (lawful : flavour.Lawful)
    (here : LocalNode flavour platform chain user password cookiePath timeout transport client)
    (there : LocalNode flavour platform other user password cookiePath timeout transport client')
    (differ : chain ≠ other) :
    client.url ≠ client'.url ∧
      (user = none ∧ cookiePath = none → client.cookiePath ≠ client'.cookiePath) := by
  obtain ⟨port, found, url⟩ := here.url
  obtain ⟨port', found', url'⟩ := there.url
  refine ⟨fun same => differ ?_, ?_⟩
  · rw [url, url'] at same
    exact loopbackUrl_unique found found' same
  · rintro ⟨rfl, rfl⟩ same
    have first := here.identified
    have second := there.identified
    generalize client.cookiePath = cookie at first same
    generalize client'.cookiePath = cookie' at second same
    cases first with
    | @derived datadir subdir known below _ =>
      cases second with
      | @derived datadir' subdir' known' below' _ =>
        cases known.symm.trans known'
        exact differ (cookie_unique lawful (defaultDatadir_absolute lawful known) below below'
          (lawful.text_inj (Option.some.inj same)))

end Whole

/-- A client of the local node of a chain is returned exactly for who is said to be calling, at the
chain's port and with the user and password given, the cookie file given, or the chain's below an
absolute datadir, and where a check is asked for, when the one call it makes is answered by a node
of the chain and of the signet meant. Whatever else is refused is so with nothing sent, a chain too
long to quote in the words of any other. Whatever the transport, it is handed one request at most, to
the loopback url of the chain, a session opens a connection to no other port, and no other chain has
the address or the cookie file. -/
theorem fromChain_exact (flavour : Flavour) (platform : Platform) (lib : Urlparse) (world : World)
    (hexError : Str → Str) (frames : Nat) (files : Str → CookieFile) (requestId chain : Str)
    (user password cookiePath : Option Str) (timeout : Timeout) (transport : Transport)
    (verifyChain : Bool) (signetChallenge : Option Challenge) (session : Session)
    (lawful : flavour.Lawful) (limit : lib.digitLimit = 0 ∨ 640 ≤ lib.digitLimit)
    (library : world.urllib = lib.urllib) (idle : session.Idle) :
    let run := fun chain => RpcClient.fromChain flavour platform lib world hexError frames files
      requestId chain user password cookiePath timeout transport verifyChain signetChallenge session
    let Local := fun chain => LocalNode flavour platform chain user password cookiePath timeout
      transport
    (∀ client after, run chain = (.ok client, after) ↔
      CheckAsked verifyChain signetChallenge ∧ Local chain client ∧
        if verifyChain then
          ∃ result, client.call world RpcClient.chainInfoHeap frames
              (files (client.cookiePath.getD [])) requestId 0 1 none RpcClient.defaultMaxBodySize
              session = (.ok result, after) ∧
            ¬ Misasked chain signetChallenge ∧ Serves chain signetChallenge result
        else after = session) ∧
    (¬ CheckAsked verifyChain signetChallenge ∨ (¬ ∃ client, Local chain client) → ∃ message,
      run chain = (.error (.btcRpcValueError message), session)) ∧
    (∀ other, maxNameShown < chain.length → maxNameShown < other.length → run chain = run other) ∧
    (∀ port, portTable.lookup chain = some port →
      Reaches (loopbackKey port) session (run chain).2 ∧
        AsksOnly world (loopbackUrl port) fun transport =>
          let run := RpcClient.fromChain flavour platform lib world hexError frames files requestId chain
            user password cookiePath timeout transport verifyChain signetChallenge session
          (run.1.map RpcClient.url, run.2)) ∧
    ∀ other client client', Local chain client → Local other client' → chain ≠ other →
      client.url ≠ client'.url ∧
        (user = none ∧ cookiePath = none → client.cookiePath ≠ client'.cookiePath) := by
  exact ⟨fun client after => fromChain_eq_ok lawful limit, fromChain_refused lawful limit,
    fun other => fromChain_long, fun port found =>
      ⟨Reaches.fromChain lawful limit library idle found, AsksOnly.fromChain lawful limit found⟩,
    fun other client client' => localNode_apart lawful⟩

/-- A process whose home is `/home/u`, and the cookie a regtest node wrote there. -/
def linux : Platform := ⟨str "linux", some (str "/home/u"), fun _ => none⟩

def regtestFiles (path : Str) : CookieFile :=
  if path = str "/home/u/.bitcoin/regtest/.cookie" then .regular (str "__cookie__:0f") else .absent

/-- A node on regtest. -/
def regtestNode : World :=
  { promptly ⟨200, none, false, [.octets 0x7B
      (str "\"result\":\x7b\"chain\":\"regtest\"\x7d,\"error\":null,\"id\":\"a\"\x7d")]⟩ with
    urllib := ascii.urllib }

/-- The client `from_chain` builds for it. -/
def regtestClient : RpcClient :=
  ⟨loopbackUrl 18443, none, none, some (posix.text (posix.join (posix.join
    (posix.parse (str "/home/u/.bitcoin")) (str "regtest")) (str ".cookie"))), ⟨30, str "30.0"⟩, .session⟩

theorem fromChain_exact_regtest :
    ∃ after, RpcClient.fromChain posix linux ascii regtestNode id 50 regtestFiles (str "a")
        (str "regtest") none none none ⟨30, str "30.0"⟩ .session true none Session.new =
        (.ok regtestClient, after) ∧
      regtestClient.cookiePath = some (str "/home/u/.bitcoin/regtest/.cookie") ∧
      Reaches (loopbackKey 18443) Session.new after := by
  obtain ⟨returns, _, _, reaches, _⟩ := fromChain_exact posix linux ascii regtestNode id 50 regtestFiles
    (str "a") (str "regtest") none none none ⟨30, str "30.0"⟩ .session true none Session.new
    posix_lawful (.inr (by decide)) rfl Sound.new
  have found : defaultDatadir posix linux = some (posix.parse (str "/home/u/.bitcoin")) := rfl
  have waits : (0 : ℚ) < 30 ∧ (30 : ℚ) ≤ maxTimeout := ⟨by norm_num, by rw [maxTimeout]; norm_num⟩
  have answered : (regtestClient.call regtestNode RpcClient.chainInfoHeap 50
      (regtestFiles (regtestClient.cookiePath.getD [])) (str "a") 0 1 none
      RpcClient.defaultMaxBodySize Session.new).1 =
        .ok (.object [(str "chain", .string (str "regtest"))]) := by
    decide +kernel
  have serves : Serves (str "regtest") none (.object [(str "chain", .string (str "regtest"))]) :=
    ⟨_, rfl, rfl, fun signet => absurd signet (by decide)⟩
  have returned := (returns regtestClient _).mpr ⟨fun asked => absurd asked (by decide),
    ⟨⟨18443, by decide, rfl⟩, .derived found (by decide) (by decide +kernel), waits, rfl, rfl, rfl, rfl⟩, by
      rw [if_pos rfl]
      exact ⟨_, Prod.ext answered rfl, by rintro ⟨_, ⟨⟩, _⟩, serves⟩⟩
  have gone := (reaches 18443 (by decide)).1
  dsimp only at returned gone
  rw [returned] at gone
  exact ⟨_, returned, by decide +kernel, gone⟩

end BitcoinCoreRpc
