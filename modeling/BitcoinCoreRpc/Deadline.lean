/-
This file models how a connection is opened and used under one deadline: the lookup of the
host, each attempt to connect, and every send and receive behind them, each given what is
left.

The network is an oracle, with as much time as it likes for each answer; a socket's timeout
is what ends a wait for it, and the process takes time of its own between operations. What
is done with the connection is any program at all, `http.client` being one. The main result
is that the whole takes no longer than the deadline and the process's own time: nothing is
waited for past the deadline, however little the peer sends at a time.
-/

import BitcoinCoreRpc.Handles
import BitcoinCoreRpc.SendAll
import BitcoinCoreRpc.Steps

namespace BitcoinCoreRpc

open Steps Handles

/-! ### The network and the process -/

/-- One answer of `getaddrinfo`. -/
structure AddressInfo where
  family : Int
  kind : Int
  protocol : Int
  address : Str

/-- What comes of an operation, by its index, and how long the network and the process take. -/
structure Network where
  /-- `getaddrinfo` under `AI_NUMERICHOST`, `none` for its `gaierror`. -/
  numeric : Str → Nat → Option (Except Exc (List AddressInfo))
  /-- What starting a thread raises, if anything. -/
  starts : Except Exc Unit
  /-- `getaddrinfo` asking the resolver, with the time it takes. -/
  lookup : Str → Nat → ℚ × Except Exc (List AddressInfo)
  creates : Nat → AddressInfo → Except Exc Unit
  connects : Nat → AddressInfo → Except Exc Unit
  handshakes : Nat → Except Exc Unit
  sends : Nat → Bytes → Except Exc Nat
  receives : Nat → Nat → Except Exc Bytes
  closes : Nat → Except Exc Unit
  /-- How long an answer takes to come. -/
  spends : Nat → ℚ
  /-- How long the process takes to get to an operation. -/
  lag : Nat → ℚ
  spends_nonneg : ∀ index, 0 ≤ spends index
  lag_nonneg : ∀ index, 0 ≤ lag index

/-- A wait for the network, on a socket with a timeout. -/
structure Wait where
  began : ℚ
  ended : ℚ
  timeout : ℚ

/-- The process, with what it did with its sockets. -/
structure Net where
  now : ℚ
  /-- How much of the time the process took itself. -/
  own : ℚ
  tick : Nat
  made : Nat
  /-- What `settimeout` set last, by socket. -/
  timeouts : Nat → ℚ
  deeds : List (Deed Nat Wait)

namespace Network

variable (network : Network)

/-- The process gets to its next operation. -/
def beat : Step Exc Net Nat := fun net =>
  (.ok net.tick, { net with
    now := net.now + network.lag net.tick
    own := net.own + network.lag net.tick
    tick := net.tick + 1 })

/-- `monotonic()` -/
def monotonic : Step Exc Net ℚ := do
  let _ ← network.beat
  return (← read).now

/-- `_seconds_left(deadline)` -/
def left (deadline : ℚ) : Step Exc Net ℚ := do
  lift (secondsLeft deadline (← network.monotonic))

/-- `sock.settimeout(_seconds_left(deadline))` -/
def settimeout (deadline : ℚ) (sock : Nat) : Step Exc Net Unit := do
  let timeout ← network.left deadline
  change fun net => { net with timeouts := Function.update net.timeouts sock timeout }

/-- A wait on a socket, for what takes this long. -/
def waiting (sock : Nat) (spent : ℚ) (net : Net) : Net :=
  let timeout := net.timeouts sock
  let ended := net.now + min spent timeout
  { net with now := ended, deeds := net.deeds ++ [.use sock ⟨net.now, ended, timeout⟩] }

/-- An operation on a socket: its answer where it comes within the socket's timeout. -/
def await {α : Type} (sock : Nat) (answer : Nat → Except Exc α) : Step Exc Net α := do
  let index ← network.beat
  let timeout := (← read).timeouts sock
  change (waiting sock (network.spends index))
  lift (if network.spends index ≤ timeout then answer index
    else .error (.osError (str "timed out")))

/-- `sock.settimeout(_seconds_left(deadline))` and an operation on the socket. -/
def bounded {α : Type} (deadline : ℚ) (sock : Nat) (answer : Nat → Except Exc α) :
    Step Exc Net α := do
  network.settimeout deadline sock
  network.await sock answer

/-- `socket(family, kind, protocol)` -/
def newSocket (info : AddressInfo) : Step Exc Net Nat := do
  lift (network.creates (← network.beat) info)
  let sock := (← read).made
  change fun net => { net with made := sock + 1, deeds := net.deeds ++ [.acquire sock] }
  return sock

/-- `sock.close()`, which closes it whether or not it raises. -/
def closeSocket (sock : Nat) : Step Exc Net Unit := do
  let index ← network.beat
  change fun net => { net with deeds := net.deeds ++ [.release sock] }
  lift (network.closes index)

/-! ### Connecting -/

/-- `lookup.join(max(0.0, deadline - monotonic()))`: whether the answer is in by then, the lookup
having been started at the one time and taking the other. -/
def join (deadline started spent : ℚ) : Step Exc Net Bool := do
  let timeout := max 0 (deadline - (← network.monotonic))
  let _ ← network.beat
  let began := (← read).now
  if started + spent ≤ began + timeout then do
    change fun net => { net with now := max began (started + spent) }
    return true
  else do
    change fun net => { net with now := began + timeout }
    return false

/-- `_resolve` -/
def resolve (host : Str) (port : Nat) (deadline : ℚ) : Step Exc Net (List AddressInfo) :=
  match network.numeric host port with
  | some answer => lift answer
  | none => do
    lift network.starts
    let (spent, answer) := network.lookup host port
    if ← network.join deadline (← read).now spent then lift answer
    else fail (.osError (str "timed out resolving " ++ host))

/-- The `try` of `_connect`, of one address. -/
def connectTo (deadline : ℚ) (sock : Nat) (info : AddressInfo) : Step Exc Net Unit := do
  network.bounded deadline sock fun index => network.connects index info
  network.settimeout deadline sock

/-- The loop of `_connect`, with the error of the attempt before. -/
def connectLoop (deadline : ℚ) : List AddressInfo → Exc → Step Exc Net Nat
  | [], error => fail error
  | info :: rest, _ => do
    let sock ← network.newSocket info
    match ← attempt (network.connectTo deadline sock info) with
    | .ok () => return sock
    | .error e =>
      if e.isOSError then do
        network.closeSocket sock
        connectLoop deadline rest e
      else fail e

/-- `_connect` -/
def connect (host : Str) (port : Nat) (deadline : ℚ) : Step Exc Net Nat := do
  let infos ← network.resolve host port deadline
  network.connectLoop deadline infos (.osError (str "no address for " ++ host))

/-- `wrap_socket`, which closes the socket where the handshake raises. -/
def wrap (sock : Nat) : Step Exc Net Unit := do
  match ← attempt (network.await sock network.handshakes) with
  | .ok () => return ()
  | .error e =>
    let _ ← attempt (network.closeSocket sock)
    fail e

/-- `_DeadlineHTTPConnection.connect`, over TLS or not. -/
def connection (secure : Bool) (host : Str) (port : Nat) (deadline : ℚ) : Step Exc Net Nat := do
  let sock ← network.connect host port deadline
  if secure then network.wrap sock
  return sock

/-! ### Using the connection -/

/-- What is done with a connected socket: sends and receives, one told from what came of those
before it. -/
inductive Program (α : Type)
  | done (outcome : Except Exc α)
  | send (piece : Bytes) (next : Except Exc Nat → Program α)
  | recv (size : Nat) (next : Except Exc Bytes → Program α)

/-- One send of `_DeadlineSocket.sendall`. -/
def sendOne (deadline : ℚ) (sock : Nat) (piece : Bytes) : Step Exc Net Nat :=
  network.bounded deadline sock fun index => network.sends index piece

/-- `_DeadlineReader.readinto` -/
def readinto (deadline : ℚ) (sock : Nat) (size : Nat) : Step Exc Net Bytes :=
  network.bounded deadline sock fun index => network.receives index size

/-- A program is run over a connected socket. -/
def perform {α : Type} (deadline : ℚ) (sock : Nat) : Program α → Step Exc Net α
  | .done outcome => lift outcome
  | .send piece next => do perform deadline sock (next (← attempt (network.sendOne deadline sock piece)))
  | .recv size next => do perform deadline sock (next (← attempt (network.readinto deadline sock size)))

/-- A connection is opened, used by a program, and closed. -/
def exchange {α : Type} (secure : Bool) (host : Str) (port : Nat) (deadline : ℚ)
    (program : Program α) : Step Exc Net α := do
  let sock ← network.connection secure host port deadline
  let outcome ← attempt (network.perform deadline sock program)
  network.closeSocket sock
  lift outcome

end Network

/-! ### What is waited for -/

section Held

variable {α : Type} {network : Network} {deadline : ℚ} {net between after : Net} {sock : Nat}
  {record first second : List (Deed Nat Wait)}

/-- From one state to another the process was held to a deadline: it went past it by no more than
its own time, and so did every wait, each given a timeout that is not zero. -/
structure Held (deadline : ℚ) (net : Net) (record : List (Deed Nat Wait)) (after : Net) : Prop where
  deeds : after.deeds = net.deeds ++ record
  made : net.made ≤ after.made
  own : net.own ≤ after.own
  now : after.now ≤ max net.now deadline + (after.own - net.own)
  waits : ∀ sock wait, .use sock wait ∈ record →
    0 < wait.timeout ∧ wait.ended ≤ wait.began + wait.timeout ∧
      wait.began + wait.timeout ≤ deadline + (after.own - net.own)

theorem Held.trans (early : Held deadline net first between) (late : Held deadline between second after) :
    Held deadline net (first ++ second) after where
  deeds := by rw [late.deeds, early.deeds, List.append_assoc]
  made := early.made.trans late.made
  own := early.own.trans late.own
  now := by
    have passed : max between.now deadline ≤ max net.now deadline + (between.own - net.own) :=
      max_le early.now (le_trans (le_max_right _ _) (le_add_of_nonneg_right (sub_nonneg.mpr early.own)))
    linarith [late.now]
  waits sock wait member := by
    rcases List.mem_append.mp member with member | member
    · obtain ⟨positive, ended, bound⟩ := early.waits sock wait member
      exact ⟨positive, ended, by linarith [late.own]⟩
    · obtain ⟨positive, ended, bound⟩ := late.waits sock wait member
      exact ⟨positive, ended, by linarith [early.own]⟩

theorem Held.refl (deadline : ℚ) (net : Net) : Held deadline net [] net where
  deeds := (List.append_nil _).symm
  made := le_rfl
  own := le_rfl
  now := by
    rw [sub_self, add_zero]
    exact le_max_left _ _
  waits := nofun

/-- A change that touches neither the clock nor what was waited for. -/
theorem Held.aside (held : Held deadline net [] between) (now : after.now = between.now)
    (own : after.own = between.own) (made : between.made ≤ after.made)
    (deeds : after.deeds = between.deeds ++ record) (idle : ∀ sock wait, .use sock wait ∉ record) :
    Held deadline net record after where
  deeds := by rw [deeds, held.deeds, List.append_nil]
  made := held.made.trans made
  own := own ▸ held.own
  now := by
    rw [now, own]
    exact held.now
  waits sock wait member := (idle sock wait member).elim

theorem beat_held (network : Network) (deadline : ℚ) (net : Net) :
    Held deadline net [] (network.beat net).2 := by
  have forward := network.lag_nonneg net.tick
  refine ⟨(List.append_nil _).symm, le_rfl, le_add_of_nonneg_right forward, ?_, nofun⟩
  show net.now + network.lag net.tick ≤ _ + (net.own + network.lag net.tick - net.own)
  rw [add_sub_cancel_left]
  exact add_le_add_left (le_max_left _ _) _

/-- What is left is asked of the clock, and there is none past the deadline. -/
theorem settimeout_held {outcome : Except Exc Unit}
    (ran : network.settimeout deadline sock net = (outcome, after)) :
    Held deadline net [] after ∧
      (outcome = .error (.osError (str "timed out")) ∨
        outcome = .ok () ∧ after.now < deadline ∧ after.timeouts sock = deadline - after.now) := by
  have held := beat_held network deadline net
  have asks : network.left deadline net =
      (secondsLeft deadline (network.beat net).2.now, (network.beat net).2) := rfl
  rcases le_or_gt deadline (network.beat net).2.now with past | inTime
  · rw [secondsLeft_of_le past] at asks
    rw [Network.settimeout, seq_of_error asks] at ran
    cases ran
    exact ⟨held, .inl rfl⟩
  · rw [secondsLeft_of_lt inTime] at asks
    rw [Network.settimeout, seq_of_ok asks] at ran
    cases ran
    exact ⟨⟨held.deeds, held.made, held.own, held.now, nofun⟩,
      .inr ⟨rfl, inTime, Function.update_self ..⟩⟩

/-- A wait given what is left, the process then taking its time to get to it. -/
theorem await_held {answer : Nat → Except Exc α} {outcome : Except Exc α} (inTime : net.now < deadline)
    (given : net.timeouts sock = deadline - net.now)
    (ran : network.await sock answer net = (outcome, after)) :
    ∃ wait, Held deadline net [.use sock wait] after := by
  have forward := network.lag_nonneg net.tick
  have least := min_le_right (network.spends net.tick) (net.timeouts sock)
  cases ran
  refine ⟨_, rfl, le_rfl, le_add_of_nonneg_right forward, ?_, ?_⟩
  · show net.now + network.lag net.tick + min (network.spends net.tick) (net.timeouts sock) ≤
      _ + (net.own + network.lag net.tick - net.own)
    linarith [le_max_right net.now deadline]
  · rintro _ _ (⟨⟩ | ⟨_, ⟨⟩⟩)
    refine ⟨?_, add_le_add_right least _, ?_⟩
    · show 0 < net.timeouts sock
      linarith
    · show net.now + network.lag net.tick + net.timeouts sock ≤
        deadline + (net.own + network.lag net.tick - net.own)
      linarith

/-- A record of nothing but uses of one socket. -/
def UsesOf (sock : Nat) (record : List (Deed Nat Wait)) : Prop :=
  ∀ deed ∈ record, ∃ wait, deed = .use sock wait

theorem UsesOf.append (early : UsesOf sock first) (late : UsesOf sock second) :
    UsesOf sock (first ++ second) :=
  fun deed member => (List.mem_append.mp member).elim (early deed) (late deed)

theorem bounded_held {answer : Nat → Except Exc α} {outcome : Except Exc α}
    (ran : network.bounded deadline sock answer net = (outcome, after)) :
    ∃ record, Held deadline net record after ∧ UsesOf sock record := by
  rcases sets : network.settimeout deadline sock net with ⟨asked, between⟩
  obtain ⟨early, rfl | ⟨rfl, inTime, given⟩⟩ := settimeout_held sets
  · rw [Network.bounded, seq_of_error sets] at ran
    cases ran
    exact ⟨[], early, nofun⟩
  · rw [Network.bounded, seq_of_ok sets] at ran
    obtain ⟨wait, late⟩ := await_held inTime given ran
    exact ⟨_, early.trans late, by simp [UsesOf]⟩

/-- An attempt to connect, which leaves the socket the timeout of a handshake behind it. -/
theorem connectTo_held {info : AddressInfo} {outcome : Except Exc Unit}
    (ran : network.connectTo deadline sock info net = (outcome, after)) :
    ∃ record, Held deadline net record after ∧ UsesOf sock record ∧
      (outcome = .ok () → after.now < deadline ∧ after.timeouts sock = deadline - after.now) := by
  rcases tries : network.bounded deadline sock (fun index => network.connects index info) net with
    ⟨e | _, between⟩
  all_goals obtain ⟨record, early, uses⟩ := bounded_held tries
  · rw [Network.connectTo, seq_of_error tries] at ran
    cases ran
    exact ⟨record, early, uses, nofun⟩
  · rw [Network.connectTo, seq_of_ok tries] at ran
    obtain ⟨late, left⟩ := settimeout_held ran
    refine ⟨record, List.append_nil record ▸ early.trans late, uses, ?_⟩
    rintro rfl
    obtain ⟨⟨⟩⟩ | ⟨-, given⟩ := left
    exact given

/-- A socket made is a new one. -/
theorem newSocket_held (deadline : ℚ) {info : AddressInfo} {outcome : Except Exc Nat}
    (ran : network.newSocket info net = (outcome, after)) :
    (∃ e, outcome = .error e ∧ Held deadline net [] after) ∨
      outcome = .ok net.made ∧ after.made = net.made + 1 ∧
        Held deadline net [.acquire net.made] after := by
  have held := beat_held network deadline net
  have made : network.newSocket info net = (lift (network.creates net.tick info) >>= fun _ => do
      let sock := (← read).made
      change fun net => { net with made := sock + 1, deeds := net.deeds ++ [.acquire sock] }
      return sock) (network.beat net).2 := rfl
  rw [made] at ran
  rcases creates : network.creates net.tick info with e | _
  · rw [creates] at ran
    cases ran
    exact .inl ⟨e, rfl, held⟩
  · rw [creates] at ran
    cases ran
    exact .inr ⟨rfl, rfl, held.aside rfl rfl (Nat.le_succ _) rfl (by simp)⟩

theorem closeSocket_held {outcome : Except Exc Unit}
    (ran : network.closeSocket sock net = (outcome, after)) :
    Held deadline net [.release sock] after := by
  cases ran
  exact (beat_held network deadline net).aside rfl rfl le_rfl rfl (by simp)

/-- A wait that is given what is left of the deadline, if anything. -/
theorem Held.of_clamped {reading ended : ℚ} (early : Held deadline net [] between)
    (lagged : between.now - reading ≤ between.own - net.own)
    (clamped : ended ≤ between.now + max 0 (deadline - reading)) :
    Held deadline net [] { between with now := ended } where
  deeds := early.deeds
  made := early.made
  own := early.own
  now := by
    show ended ≤ max net.now deadline + (between.own - net.own)
    rcases max_cases 0 (deadline - reading) with ⟨spent, -⟩ | ⟨left, -⟩
    · rw [spent, add_zero] at clamped
      exact clamped.trans early.now
    · rw [left] at clamped
      linarith [le_max_right net.now deadline]
  waits := nofun

/-- The wait for a lookup ends by the deadline, whenever the lookup does. -/
theorem join_held {started spent : ℚ} {outcome : Except Exc Bool}
    (ran : network.join deadline started spent net = (outcome, after)) :
    Held deadline net [] after := by
  have first := beat_held network deadline net
  have second := beat_held network deadline (network.beat net).2
  have positive := le_max_left 0 (deadline - (network.beat net).2.now)
  have lagged : (network.beat (network.beat net).2).2.now - (network.beat net).2.now ≤
      (network.beat (network.beat net).2).2.own - net.own := by
    have forward := network.lag_nonneg net.tick
    show net.now + network.lag net.tick + network.lag (net.tick + 1) - (net.now + network.lag net.tick) ≤
      net.own + network.lag net.tick + network.lag (net.tick + 1) - net.own
    linarith
  change (if _ then _ else _ : Step Exc Net Bool) (network.beat (network.beat net).2).2 = _ at ran
  split_ifs at ran with inTime
  all_goals cases ran
  · exact (first.trans second).of_clamped lagged (max_le (le_add_of_nonneg_right positive) inTime)
  · exact (first.trans second).of_clamped lagged le_rfl

theorem resolve_held {host : Str} {port : Nat} {outcome : Except Exc (List AddressInfo)}
    (ran : network.resolve host port deadline net = (outcome, after)) : Held deadline net [] after := by
  rw [Network.resolve] at ran
  rcases numeric : network.numeric host port with _ | answer
  · rw [numeric] at ran
    dsimp only at ran
    rcases starts : network.starts with e | _
    · rw [starts] at ran
      cases ran
      exact Held.refl deadline net
    · rw [starts] at ran
      rcases waits : network.join deadline net.now (network.lookup host port).1 net with
        ⟨e | inTime, between⟩
      · change (network.join deadline net.now _ >>= _) net = _ at ran
        rw [seq_of_error waits] at ran
        cases ran
        exact join_held waits
      · change (network.join deadline net.now _ >>= _) net = _ at ran
        rw [seq_of_ok waits] at ran
        cases inTime
        all_goals cases ran
        all_goals exact join_held waits
  · rw [numeric] at ran
    cases ran
    exact Held.refl deadline net

end Held

/-! ### What is left open -/

section Open

variable {network : Network} {deadline : ℚ} {net after : Net} {sock : Nat} {held : List Nat}
  {record first second : List (Deed Nat Wait)}

/-- What a failure leaves open: nothing, or one socket more where it is no `OSError`. -/
def Tidy (held : List Nat) (record : List (Deed Nat Wait)) (e : Exc) : Prop :=
  Settled held record ∨ e.isOSError = false ∧ ∃ sock, replay held record = some (sock :: held)

theorem Tidy.behind {e : Exc} (early : Settled held first) (late : Tidy held second e) :
    Tidy held (first ++ second) e := by
  rcases late with settled | ⟨other, sock, leaves⟩
  · exact .inl (early.append settled)
  · exact .inr ⟨other, sock, replay_trans early leaves⟩

/-- A socket opened, with what is left set as its timeout, or a failure. -/
def Opened (deadline : ℚ) (held : List Nat) (record : List (Deed Nat Wait)) (after : Net) :
    Except Exc Nat → Prop
  | .ok sock => replay held record = some (sock :: held) ∧
      after.now < deadline ∧ after.timeouts sock = deadline - after.now
  | .error e => Tidy held record e

theorem Opened.behind {outcome : Except Exc Nat} (early : Settled held first)
    (late : Opened deadline held second after outcome) :
    Opened deadline held (first ++ second) after outcome := by
  cases outcome with
  | ok sock => exact ⟨replay_trans early late.1, late.2⟩
  | error e => exact Tidy.behind early late

theorem settled_uses (uses : UsesOf sock record) : Settled (sock :: held) record :=
  settled_of_uses List.mem_cons_self uses

/-- A socket made and used is what is open on top of the others. -/
theorem replay_made (fresh : sock ∉ held) (uses : UsesOf sock record) :
    replay held (.acquire sock :: record) = some (sock :: held) := by
  rw [replay_acquire, if_neg fresh]
  exact settled_uses uses

/-- Each attempt that fails closes its socket before the next one. -/
theorem connectLoop_held {infos : List AddressInfo} {error : Exc} {outcome : Except Exc Nat}
    (older : ∀ sock ∈ held, sock < net.made)
    (ran : network.connectLoop deadline infos error net = (outcome, after)) :
    ∃ record, Held deadline net record after ∧ Opened deadline held record after outcome := by
  induction infos generalizing error net with
  | nil =>
    cases ran
    exact ⟨[], Held.refl deadline _, .inl rfl⟩
  | cons info rest inductionHypothesis =>
    rw [Network.connectLoop] at ran
    rcases makes : network.newSocket info net with ⟨made, between⟩
    obtain ⟨e, rfl, early⟩ | ⟨rfl, made, early⟩ := newSocket_held deadline makes
    · rw [seq_of_error makes] at ran
      cases ran
      exact ⟨[], early, .inl rfl⟩
    rw [seq_of_ok makes] at ran
    have fresh : net.made ∉ held := fun member => (older _ member).ne rfl
    rcases tries : network.connectTo deadline net.made info between with ⟨tried, reached⟩
    obtain ⟨record, late, uses, given⟩ := connectTo_held tries
    have attempts : attempt (network.connectTo deadline net.made info) between = (.ok tried, reached) := by
      rw [attempt, tries]
    rw [seq_of_ok attempts] at ran
    rcases tried with e | _
    · dsimp only at ran
      split_ifs at ran with caught
      · rcases closes : network.closeSocket net.made reached with ⟨e' | _, closed⟩
        · rw [seq_of_error closes] at ran
          cases ran
          exact ⟨_, (early.trans late).trans (closeSocket_held closes),
            .inl (Settled.bracket fresh (settled_uses uses))⟩
        · rw [seq_of_ok closes] at ran
          have tried := (early.trans late).trans (closeSocket_held closes)
          obtain ⟨others, last, opened⟩ := inductionHypothesis
            (fun sock member => (older sock member).trans_le tried.made) ran
          exact ⟨_, tried.trans last, opened.behind (Settled.bracket fresh (settled_uses uses))⟩
      · cases ran
        exact ⟨_, early.trans late, .inr ⟨by simpa using caught, net.made, replay_made fresh uses⟩⟩
    · cases ran
      exact ⟨_, early.trans late, replay_made fresh uses, given rfl⟩

theorem connect_held {host : Str} {port : Nat} {outcome : Except Exc Nat}
    (older : ∀ sock ∈ held, sock < net.made)
    (ran : network.connect host port deadline net = (outcome, after)) :
    ∃ record, Held deadline net record after ∧ Opened deadline held record after outcome := by
  rw [Network.connect] at ran
  rcases resolves : network.resolve host port deadline net with ⟨e | infos, between⟩
  · rw [seq_of_error resolves] at ran
    cases ran
    exact ⟨[], resolve_held resolves, .inl rfl⟩
  · rw [seq_of_ok resolves] at ran
    have early := resolve_held resolves
    obtain ⟨record, late, opened⟩ :=
      connectLoop_held (fun sock member => (older sock member).trans_le early.made) ran
    exact ⟨record, early.trans late, opened⟩

/-- A handshake is one wait, and the socket is closed behind one that fails. -/
theorem wrap_held (held : List Nat) {outcome : Except Exc Unit} (inTime : net.now < deadline)
    (given : net.timeouts sock = deadline - net.now)
    (ran : network.wrap sock net = (outcome, after)) :
    ∃ record, Held deadline net record after ∧
      replay (sock :: held) record = some (if outcome.isOk then sock :: held else held) := by
  rcases waits : network.await sock network.handshakes net with ⟨shaken, between⟩
  obtain ⟨wait, early⟩ := await_held inTime given waits
  have uses : Settled (sock :: held) [.use sock wait] := settled_uses (by simp [UsesOf])
  have attempts : attempt (network.await sock network.handshakes) net = (.ok shaken, between) := by
    rw [attempt, waits]
  rw [Network.wrap, seq_of_ok attempts] at ran
  rcases shaken with e | _
  · rcases closes : network.closeSocket sock between with ⟨closed, reached⟩
    have tries : attempt (network.closeSocket sock) between = (.ok closed, reached) := by
      rw [attempt, closes]
    dsimp only at ran
    rw [seq_of_ok tries] at ran
    cases ran
    exact ⟨_, early.trans (closeSocket_held closes), uses.released⟩
  · cases ran
    exact ⟨_, early, uses⟩

theorem connection_held {secure : Bool} {host : Str} {port : Nat} {outcome : Except Exc Nat}
    (older : ∀ sock ∈ held, sock < net.made)
    (ran : network.connection secure host port deadline net = (outcome, after)) :
    ∃ record, Held deadline net record after ∧
      match outcome with
      | .ok sock => replay held record = some (sock :: held)
      | .error e => Tidy held record e := by
  rw [Network.connection] at ran
  rcases connects : network.connect host port deadline net with ⟨e | sock, between⟩
  all_goals obtain ⟨record, early, opened⟩ := connect_held older connects
  · rw [seq_of_error connects] at ran
    cases ran
    exact ⟨record, early, opened⟩
  obtain ⟨opened, inTime, given⟩ := opened
  rw [seq_of_ok connects] at ran
  cases secure with
  | false =>
    cases ran
    exact ⟨record, early, opened⟩
  | true =>
    rw [if_pos rfl] at ran
    rcases wraps : network.wrap sock between with ⟨e | _, reached⟩
    all_goals obtain ⟨others, late, left⟩ := wrap_held held inTime given wraps
    · rw [seq_of_error wraps] at ran
      cases ran
      exact ⟨_, early.trans late, .inl (replay_trans opened left)⟩
    · rw [seq_of_ok wraps] at ran
      cases ran
      exact ⟨_, early.trans late, replay_trans opened left⟩

/-- Whatever is done with the connection, each of its waits is given what is left. -/
theorem perform_held {α : Type} {program : Network.Program α} {outcome : Except Exc α}
    (ran : network.perform deadline sock program net = (outcome, after)) :
    ∃ record, Held deadline net record after ∧ UsesOf sock record := by
  induction program generalizing net with
  | done answer =>
    cases ran
    exact ⟨[], Held.refl deadline _, nofun⟩
  | send piece next inductionHypothesis =>
    rcases sends : network.sendOne deadline sock piece net with ⟨sent, between⟩
    obtain ⟨first, early, uses⟩ := bounded_held sends
    have attempts : attempt (network.sendOne deadline sock piece) net = (.ok sent, between) := by
      rw [attempt, sends]
    rw [Network.perform, seq_of_ok attempts] at ran
    obtain ⟨second, late, others⟩ := inductionHypothesis sent ran
    exact ⟨first ++ second, early.trans late, uses.append others⟩
  | recv size next inductionHypothesis =>
    rcases reads : network.readinto deadline sock size net with ⟨taken, between⟩
    obtain ⟨first, early, uses⟩ := bounded_held reads
    have attempts : attempt (network.readinto deadline sock size) net = (.ok taken, between) := by
      rw [attempt, reads]
    rw [Network.perform, seq_of_ok attempts] at ran
    obtain ⟨second, late, others⟩ := inductionHypothesis taken ran
    exact ⟨first ++ second, early.trans late, uses.append others⟩

/-- However the network answers and whatever is done with the connection, the whole of a lookup,
the attempts to connect, a handshake and every send and receive ends by the deadline or in the
process's own time beyond it, no wait is given a timeout of zero, and every socket made is closed
again, one aside where connecting itself raised what is no `OSError`. -/
theorem exchange_held {α : Type} {secure : Bool} {host : Str} {port : Nat} {program : Network.Program α}
    {outcome : Except Exc α} (older : ∀ sock ∈ held, sock < net.made)
    (ran : network.exchange secure host port deadline program net = (outcome, after)) :
    ∃ record, Held deadline net record after ∧
      (Settled held record ∨ ∃ e,
        network.connection secure host port deadline net = (.error e, after) ∧ outcome = .error e ∧
          e.isOSError = false ∧ ∃ sock, replay held record = some (sock :: held)) := by
  rw [Network.exchange] at ran
  rcases opens : network.connection secure host port deadline net with ⟨e | sock, between⟩
  all_goals obtain ⟨record, early, left⟩ := connection_held older opens
  · rw [seq_of_error opens] at ran
    cases ran
    exact ⟨record, early, left.imp_right fun stays => ⟨e, rfl, rfl, stays⟩⟩
  rcases performs : network.perform deadline sock program between with ⟨performed, reached⟩
  obtain ⟨done, late, uses⟩ := perform_held performs
  have attempts : attempt (network.perform deadline sock program) between = (.ok performed, reached) := by
    rw [attempt, performs]
  rw [seq_of_ok opens, seq_of_ok attempts] at ran
  rcases closes : network.closeSocket sock reached with ⟨closed, last⟩
  have settled : Settled held (record ++ (done ++ [.release sock])) :=
    replay_trans left (settled_uses uses).released
  refine ⟨_, early.trans (late.trans ?_), .inl settled⟩
  rcases closed with e | _
  · rw [seq_of_error closes] at ran
    cases ran
    exact closeSocket_held closes
  · rw [seq_of_ok closes] at ran
    cases ran
    exact closeSocket_held closes

end Open

section Dripping

/-- A resolver that takes two seconds, an address that refuses in one, another that connects in
one, and a peer that sends an octet every three. -/
def dripping : Network where
  numeric _ _ := none
  starts := .ok ()
  lookup _ _ := (2, .ok [⟨10, 1, 6, str "::1"⟩, ⟨2, 1, 6, str "127.0.0.1"⟩])
  creates _ _ := .ok ()
  connects _ info := if info.family = 10 then .error (.osError (str "refused")) else .ok ()
  handshakes _ := .ok ()
  sends _ piece := .ok piece.length
  receives _ _ := .ok [10]
  closes _ := .ok ()
  spends index := if 14 ≤ index then 3 else 1
  lag _ := 1 / 100
  spends_nonneg index := by split_ifs <;> norm_num
  lag_nonneg _ := by norm_num

def idle : Net := ⟨0, 0, 0, 0, fun _ => 0, []⟩

/-- So many octets are received, one at a time. -/
def received : Nat → Network.Program Unit
  | 0 => .done (.ok ())
  | count + 1 => .recv 1 fun
    | .ok _ => received count
    | .error e => .done (.error e)

/-- A request is sent, and its answer received. -/
def posting : Network.Program Unit :=
  .send (str "POST") fun
    | .ok _ => received 5
    | .error e => .done (.error e)

theorem exchange_held_dripping :
    (dripping.exchange true (str "node") 8332 10 posting idle).1 =
        .error (.osError (str "timed out")) ∧
      ∃ record, Held 10 idle record (dripping.exchange true (str "node") 8332 10 posting idle).2 ∧
        Settled [] record := by
  have ends : (dripping.exchange true (str "node") 8332 10 posting idle).1 =
      .error (.osError (str "timed out")) := by decide +kernel
  refine ⟨ends, ?_⟩
  have older : ∀ sock ∈ ([] : List Nat), sock < idle.made := nofun
  obtain ⟨record, bound, settled | ⟨e, _, raised, other, _⟩⟩ := exchange_held older (Prod.ext ends rfl)
  · exact ⟨record, bound, settled⟩
  · cases raised
    cases other

end Dripping

end BitcoinCoreRpc
