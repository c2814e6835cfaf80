/-
This file settles what `http_request` makes of a body that does not arrive whole.

Under a status from 400 up the body may fail part way. Over `urlopen_transport` the
status is in the `HTTPError` that `http_request` caught, and a failing read leaves it in
hand; `SessionTransport` reads such a body itself, inside a `try` that re-raises, so
that the status is lost with the body. Under a success status the body may end before
the octets that were announced, and neither transport compares the two.
-/

import BitcoinCoreRpc.HttpRequest
import BitcoinCoreRpc.BoundedRead

namespace BitcoinCoreRpc

/-! ### An exchange that gets a response -/

/-- The session in which a call over it begins its exchange. -/
def Session.begun (session : Session) : Session :=
  Session.ticked { session.ticked with call := session.call + 1 }

/-- The key a url's connection is kept under. -/
def Url.key (url : Url) : Key := (url.scheme, url.host, Session.effectivePort url)

/-- The status line and headers of a response arrive over a transport. Its body is read against a
deadline, from where the arrivals and the clock then are. -/
inductive Answered (world : World) (url : Url) (timeout : Timeout) (session : Session)
    (response : Response) : Transport → ℚ → Reader → Prop
  | answer (opened : world.opener (session.tick + 2) = .ok response)
      (success : 200 ≤ response.status ∧ response.status < 300) :
      Answered world url timeout session response .urlopen
        (world.clock (session.tick + 1) + timeout.seconds) ⟨response.arrivals, session.tick + 3⟩
  | httpError (opened : world.opener (session.tick + 2) = .ok response)
      (failure : ¬ (200 ≤ response.status ∧ response.status < 300)) :
      Answered world url timeout session response .urlopen
        (world.clock session.tick + timeout.seconds) ⟨response.arrivals, session.tick + 3⟩
  | session (connection : ConnectionId) (after : Session)
      (exchanged : session.begun.sendAndReceive world url.key
        (world.clock (session.tick + 1) + timeout.seconds) url.where_ =
          (.ok (response, connection), after)) :
      Answered world url timeout session response .session
        (world.clock (session.tick + 1) + timeout.seconds) ⟨response.arrivals, after.tick⟩

section Exchange

variable {world : World} {url : Str} {parts : Url} {data : Option Bytes}
  {headers : List (Str × Str)} {timeout : Timeout} {response : Response} {maxBodySize : Nat}
  {session : Session} {transport : Transport} {deadline : ℚ} {reader : Reader}

/-- Over urllib a response under a status outside 200..299 is an `HTTPError`, its body not yet
read. -/
theorem urlopenTransport_httpError (split : splitUrl world.urllib url = .ok parts)
    (waits : 0 < timeout.seconds ∧ timeout.seconds ≤ maxTimeout) (request : Request)
    (same : request.fullUrl = url) (opened : world.opener (session.tick + 2) = .ok response)
    (failure : ¬ (200 ≤ response.status ∧ response.status < 300)) :
    urlopenTransport world request timeout maxBodySize session.ticked =
      (.httpError response, session.ticked.ticked.ticked) := by
  simp only [urlopenTransport, assertValidMaxBodySize_ofNat, assertValidTimeout, if_pos waits, same,
    split, Session.monotonic]
  rw [show session.ticked.ticked.tick = session.tick + 2 from rfl, opened]
  exact if_neg failure

/-- Over urllib a response under a success status is read to the caller's limit. -/
theorem urlopenTransport_answer (split : splitUrl world.urllib url = .ok parts)
    (waits : 0 < timeout.seconds ∧ timeout.seconds ≤ maxTimeout) (request : Request)
    (same : request.fullUrl = url) (opened : world.opener (session.tick + 2) = .ok response)
    (success : 200 ≤ response.status ∧ response.status < 300) :
    (urlopenTransport world request timeout maxBodySize session.ticked).1 =
      match (readBounded world.py world.clock response.contentLength maxBodySize parts.where_
        (world.clock (session.tick + 1) + timeout.seconds) false
        ⟨response.arrivals, session.tick + 3⟩).1 with
      | .ok body => .answered response.status body
      | .error e => .raised e := by
  simp only [urlopenTransport, assertValidMaxBodySize_ofNat, assertValidTimeout, if_pos waits, same,
    split, Session.monotonic]
  rw [show session.ticked.ticked.tick = session.tick + 2 from rfl, opened]
  simp only [if_pos success]
  rcases ran : readBounded world.py world.clock response.contentLength maxBodySize parts.where_
    (world.clock (session.tick + 1) + timeout.seconds) false ⟨response.arrivals, session.tick + 3⟩
    with ⟨e | body, read⟩
  all_goals
    rw [show session.ticked.tick = session.tick + 1 from rfl,
      show session.tick + 2 + 1 = session.tick + 3 from rfl, ran]

/-- Over a session what the read of the body answers or raises is the call's. -/
theorem send_answered (split : splitUrl world.urllib url = .ok parts)
    (waits : 0 < timeout.seconds ∧ timeout.seconds ≤ maxTimeout) (request : Request)
    (same : request.fullUrl = url) {connection : ConnectionId} {after : Session}
    (exchanged : session.begun.sendAndReceive world parts.key
      (world.clock (session.tick + 1) + timeout.seconds) parts.where_ =
        (.ok (response, connection), after)) :
    (session.ticked.send world request timeout maxBodySize).1 =
      ((readBounded world.py world.clock response.contentLength
        (if clientError ≤ response.status then (maxErrorBodySize : Int) else maxBodySize) parts.where_
        (world.clock (session.tick + 1) + timeout.seconds) (decide (clientError ≤ response.status))
        ⟨response.arrivals, after.tick⟩).1).map fun body => (response.status, body) := by
  rw [← readBody_fst after connection]
  simp only [Session.begun, Url.key, Session.ticked] at exchanged
  simp only [Session.send, assertValidMaxBodySize_ofNat, assertValidTimeout, if_pos waits, same,
    split, Session.monotonic, Session.ticked, exchanged]
  split
  · rename_i e final read
    rw [read]
    rfl
  · rename_i body ended final read
    rw [read]
    split_ifs <;> rfl

/-! ### A failure whose body fails -/

/-- The body of a failure cannot be read: a reading taken before a read of it is past the deadline,
or within what is kept of it an `OSError` or an `HTTPException` ends it. -/
def BodyFails (world : World) (deadline : ℚ) (reader : Reader) : Prop :=
  Late world.clock deadline (maxErrorBodySize + 1) (maxErrorBodySize + 1) reader ∨
    ∃ e, firstFailure reader.arrivals = some e ∧ (e.isOSError || e.isHTTPException) = true ∧
      (contents reader.arrivals).length ≤ maxErrorBodySize

/-- The read of such a body raises what `http_request` catches. -/
theorem readBounded_bodyFails (fails : BodyFails world deadline reader) (where_ : Str)
    (contentLength : Option Str) :
    ∃ e, (readBounded world.py world.clock contentLength maxErrorBodySize where_ deadline true
        reader).1 = .error e ∧
      ((e.isOSError || e.isHTTPException) = true ∨ ∃ message, e = .fetchError message) := by
  by_cases late : Late world.clock deadline (maxErrorBodySize + 1) (maxErrorBodySize + 1) reader
  · exact ⟨_, readBounded_truncate_late late, .inr ⟨_, rfl⟩⟩
  · obtain now | ⟨e, ends, caught, short⟩ := fails
    · exact absurd now late
    · exact ⟨e, readBounded_truncate_failure late ends short, .inl caught⟩

/-- `http_request` answers the status of an `HTTPError` whose body it cannot read, and no body. -/
theorem readSent_httpError_error {where_ : Str} {e : Exc}
    (raised : (readBounded world.py world.clock response.contentLength maxErrorBodySize where_ deadline
      true ⟨response.arrivals, session.tick⟩).1 = .error e)
    (caught : (e.isOSError || e.isHTTPException) = true ∨ ∃ message, e = .fetchError message) :
    (readSent world where_ deadline maxBodySize (.httpError response) session).1 =
      .ok (response.status, []) := by
  have handled : (e.isOSError || e.isHTTPException || e.isFetchError) = true := by
    rcases caught with other | ⟨message, rfl⟩
    · rw [other, Bool.true_or]
    · rfl
  simp only [readSent]
  rcases ran : readBounded world.py world.clock response.contentLength maxErrorBodySize where_ deadline
    true ⟨response.arrivals, session.tick⟩ with ⟨result, read⟩
  rw [ran] at raised
  obtain rfl : result = .error e := raised
  simp only [if_pos handled]

/-- Under a status from 400 up whose body cannot be read, `http_request` answers the status and no
body exactly over `urlopen_transport`. Over a session it raises. -/
theorem httpRequest_brokenFailure_iff (split : splitUrl world.urllib url = .ok parts)
    (valid : assertValidHeaders headers = .ok ())
    (waits : 0 < timeout.seconds ∧ timeout.seconds ≤ maxTimeout)
    (answered : Answered world parts timeout session response transport deadline reader)
    (failure : clientError ≤ response.status) (fails : BodyFails world deadline reader) :
    ((httpRequest world url data headers timeout maxBodySize transport session).1 =
        .ok (response.status, []) ↔ transport = .urlopen) ∧
      (transport = .session → ∃ message,
        (httpRequest world url data headers timeout maxBodySize transport session).1 =
          .error (.fetchError message)) := by
  obtain ⟨request, same, _, run⟩ := @httpRequest_from world url data headers timeout maxBodySize
    session parts split valid waits transport
  obtain ⟨e, raised, caught⟩ := readBounded_bodyFails fails parts.where_ response.contentLength
  rw [run]
  cases answered with
  | answer opened success => exact absurd failure (not_le.mpr (success.2.trans (by decide)))
  | httpError opened unsuccessful =>
    refine ⟨iff_of_true ?_ rfl, by rintro ⟨⟩⟩
    rw [Transport.call, urlopenTransport_httpError split waits request same opened unsuccessful]
    exact readSent_httpError_error raised caught
  | session connection after exchanged =>
    have sent := @send_answered world url parts timeout response maxBodySize session split waits
      request same connection after exchanged
    simp only [failure, if_true, decide_true, raised] at sent
    have ends : ∃ message, (readSent world parts.where_ (world.clock session.tick + timeout.seconds)
        maxBodySize (Transport.session.call world request timeout maxBodySize session.ticked).1
        (Transport.session.call world request timeout maxBodySize session.ticked).2).1 =
          .error (.fetchError message) := by
      simp only [Transport.call]
      generalize session.ticked.send world request timeout maxBodySize = outcome at sent
      obtain ⟨answer, final⟩ := outcome
      obtain rfl : answer = .error e := sent
      simp only [readSent]
      rcases caught with other | ⟨message, rfl⟩
      · rw [if_pos other]
        exact ⟨_, rfl⟩
      · exact ⟨message, rfl⟩
    obtain ⟨message, refused⟩ := ends
    rw [refused]
    exact ⟨iff_of_false (by rintro ⟨⟩) (by rintro ⟨⟩), fun _ => ⟨message, rfl⟩⟩

/-! ### An answer whose body ends early -/

/-- A complete body within the limit, nothing over it announced, is late or is answered whole. -/
theorem readBounded_within (complete : Complete reader.arrivals)
    (fits : (contents reader.arrivals).length ≤ maxBodySize) {contentLength : Option Str}
    (quiet : announcedOver world.py contentLength maxBodySize = none) (where_ : Str) :
    (∃ message, (readBounded world.py world.clock contentLength maxBodySize where_ deadline false
        reader).1 = .error (.fetchError message)) ∧
      Late world.clock deadline (maxBodySize + 1) (maxBodySize + 1) reader ∨
    (readBounded world.py world.clock contentLength maxBodySize where_ deadline false reader).1 =
        .ok (contents reader.arrivals) ∧
      ¬ Late world.clock deadline (maxBodySize + 1) (maxBodySize + 1) reader := by
  by_cases late : Late world.clock deadline (maxBodySize + 1) (maxBodySize + 1) reader
  · exact .inl ⟨readBounded_refuse_error complete fun ⟨_, _, inTime⟩ => inTime late, late⟩
  · exact .inr ⟨readBounded_refuse_ok complete fits quiet late, late⟩

/-- A body that ends before the octets announced is answered as if it were whole, with its status,
over either transport: `http_request` raises `FetchError` exactly where a reading of the clock taken
before a read of the body is past the deadline. -/
theorem httpRequest_cutShort_iff {announced : Str} {size : Nat}
    (split : splitUrl world.urllib url = .ok parts) (valid : assertValidHeaders headers = .ok ())
    (waits : 0 < timeout.seconds ∧ timeout.seconds ≤ maxTimeout)
    (answered : Answered world parts timeout session response transport deadline reader)
    (success : 200 ≤ response.status ∧ response.status < 300)
    (announces : response.contentLength = some announced) (number : pyInt world.py announced = some size)
    (within : size ≤ maxBodySize) (complete : Complete response.arrivals)
    (short : (contents response.arrivals).length < size) :
    ((∃ message, (httpRequest world url data headers timeout maxBodySize transport session).1 =
        .error (.fetchError message)) ↔
      Late world.clock deadline (maxBodySize + 1) (maxBodySize + 1) reader) ∧
    (¬ Late world.clock deadline (maxBodySize + 1) (maxBodySize + 1) reader →
      (httpRequest world url data headers timeout maxBodySize transport session).1 =
        .ok (response.status, contents response.arrivals)) := by
  obtain ⟨request, same, _, run⟩ := @httpRequest_from world url data headers timeout maxBodySize
    session parts split valid waits transport
  have notDiagnosis : ¬ clientError ≤ response.status := not_le.mpr (success.2.trans (by decide))
  have fits : (contents response.arrivals).length ≤ maxBodySize := short.le.trans within
  have quiet : announcedOver world.py response.contentLength maxBodySize = none := by
    simp only [announces, announcedOver, number]
    exact if_neg (not_lt.mpr (Int.ofNat_le.mpr within))
  have sent : (∃ message, (transport.call world request timeout maxBodySize session.ticked).1 =
        .raised (.fetchError message)) ∧
      Late world.clock deadline (maxBodySize + 1) (maxBodySize + 1) reader ∨
    (transport.call world request timeout maxBodySize session.ticked).1 =
        .answered response.status (contents response.arrivals) ∧
      ¬ Late world.clock deadline (maxBodySize + 1) (maxBodySize + 1) reader := by
    cases answered with
    | answer opened =>
      rw [Transport.call, urlopenTransport_answer split waits request same opened success]
      rcases @readBounded_within world maxBodySize _ ⟨response.arrivals, session.tick + 3⟩ complete
        fits _ quiet parts.where_ with ⟨⟨message, raised⟩, late⟩ | ⟨whole, inTime⟩
      · rw [raised]
        exact .inl ⟨⟨message, rfl⟩, late⟩
      · rw [whole]
        exact .inr ⟨rfl, inTime⟩
    | httpError opened unsuccessful => exact absurd success unsuccessful
    | session connection after exchanged =>
      have sent := @send_answered world url parts timeout response maxBodySize session split waits
        request same connection after exchanged
      simp only [notDiagnosis, if_false, decide_false] at sent
      simp only [Transport.call]
      generalize session.ticked.send world request timeout maxBodySize = outcome at sent
      obtain ⟨result, final⟩ := outcome
      rcases @readBounded_within world maxBodySize _ ⟨response.arrivals, after.tick⟩ complete fits _
        quiet parts.where_ with ⟨⟨message, raised⟩, late⟩ | ⟨whole, inTime⟩
      · rw [raised] at sent
        obtain rfl : result = .error (.fetchError message) := sent
        exact .inl ⟨⟨message, rfl⟩, late⟩
      · rw [whole] at sent
        obtain rfl : result = .ok (response.status, contents response.arrivals) := sent
        exact .inr ⟨rfl, inTime⟩
  rw [run]
  rcases sent with ⟨⟨message, raised⟩, late⟩ | ⟨whole, inTime⟩
  · rw [raised]
    exact ⟨iff_of_true ⟨message, rfl⟩ late, fun inTime => absurd late inTime⟩
  · rw [whole]
    simp only [readSent, if_neg notDiagnosis, if_neg (not_lt.mpr (Int.ofNat_le.mpr fits))]
    exact ⟨iff_of_false (by rintro ⟨_, ⟨⟩⟩) inTime, fun _ => trivial⟩

end Exchange

/-! ### Runs -/

/-- `http://localhost:8332` -/
def localhost : Url := ⟨str "http", str "localhost", some 8332, str "http://localhost:8332"⟩

theorem promptly_not_late (response : Response) (fuel : Nat) (reader : Reader) :
    ¬ Late (promptly response).clock ((promptly response).clock 0 + 30) fuel fuel reader := by
  rintro ⟨_, _, late⟩
  exact absurd late (by show ¬ (0 : ℚ) + 30 < 0; norm_num)

/-- A peer that answers at once answers over a new session. -/
theorem promptly_answered (response : Response) : ∃ tick,
    Answered (promptly response) localhost ⟨30, str "30.0"⟩ Session.new response .session
      ((promptly response).clock 0 + 30) ⟨response.arrivals, tick⟩ := by
  obtain ⟨connection, after, ran⟩ := @sendAndReceive_fresh (promptly response) response
    (fun _ => rfl) (fun _ => rfl) (fun _ _ => rfl) Session.new.begun localhost.key
    ((promptly response).clock 0 + 30) localhost.where_ rfl
    (fun _ => by show ¬ (0 : ℚ) + 30 - 0 ≤ 0; norm_num)
  exact ⟨_, .session connection after ran⟩

/-- A busy node whose page is sent in chunks: of one of five octets two arrive before the peer ends the
stream, which `read1` finds in place of the other three. -/
def busy : Response :=
  ⟨503, none, false, [.octets 0x61 [0x62], .failure (.httpException
    (str "IncompleteRead(0 bytes read)"))]⟩

theorem busy_fails (tick : Nat) (deadline : ℚ) :
    BodyFails (promptly busy) deadline ⟨busy.arrivals, tick⟩ :=
  .inr ⟨_, rfl, rfl, Nat.le_of_ble_eq_true rfl⟩

/-- Over urllib the status of the busy node is answered. -/
theorem httpRequest_brokenFailure_iff_busy :
    (httpRequest (promptly busy) (str "http://localhost:8332/") none [] ⟨30, str "30.0"⟩ 100
      .urlopen Session.new).1 = .ok (503, []) :=
  ((@httpRequest_brokenFailure_iff (promptly busy) (str "http://localhost:8332/") localhost none []
    ⟨30, str "30.0"⟩ busy 100 Session.new .urlopen _ _ rfl rfl
    (by constructor <;> simp only [maxTimeout] <;> norm_num)
    (.httpError rfl (by decide)) (by decide) (busy_fails _ _)).1).mpr rfl

/-- Over a session it is lost: the failing read of its page is raised in its place. -/
theorem httpRequest_brokenFailure_lost :
    (∃ deadline reader, Answered (promptly busy) localhost ⟨30, str "30.0"⟩ Session.new busy .session
      deadline reader ∧ BodyFails (promptly busy) deadline reader) ∧
    (httpRequest (promptly busy) (str "http://localhost:8332/") none [] ⟨30, str "30.0"⟩ 100
      .session Session.new).1 = .error (.fetchError (str
        "no answer from http://localhost:8332: IncompleteRead(0 bytes read)")) ∧
    (httpRequest (promptly busy) (str "http://localhost:8332/") none [] ⟨30, str "30.0"⟩ 100
      .session Session.new).1 ≠ .ok (503, []) := by
  have refused : (httpRequest (promptly busy) (str "http://localhost:8332/") none []
      ⟨30, str "30.0"⟩ 100 .session Session.new).1 = .error (.fetchError (str
        "no answer from http://localhost:8332: IncompleteRead(0 bytes read)")) := by
    decide +kernel
  obtain ⟨tick, answered⟩ := promptly_answered busy
  refine ⟨⟨_, _, answered, busy_fails _ _⟩, refused, ?_⟩
  rw [refused]
  exact nofun

/-- A success that announces five octets, two of which arrive before the peer ends the stream. -/
def cutShort : Response := ⟨200, some (str "5"), false, [.octets 0x61 [0x62]]⟩

theorem cutShort_complete : Complete cutShort.arrivals := by
  rintro arrival member e rfl
  simp [cutShort] at member

/-- The two octets are answered, over either transport. -/
theorem httpRequest_cutShort_answered :
    pyInt (promptly cutShort).py (str "5") = some 5 ∧ (contents cutShort.arrivals).length < 5 ∧
    (httpRequest (promptly cutShort) (str "http://localhost:8332/") none [] ⟨30, str "30.0"⟩ 100
      .urlopen Session.new).1 = .ok (200, str "ab") ∧
    (httpRequest (promptly cutShort) (str "http://localhost:8332/") none [] ⟨30, str "30.0"⟩ 100
      .session Session.new).1 = .ok (200, str "ab") := by
  refine ⟨?_, ?_, ?_, ?_⟩ <;> decide +kernel

/-- They are answered over a session as the general statement says. -/
theorem httpRequest_cutShort_iff_two :
    (httpRequest (promptly cutShort) (str "http://localhost:8332/") none [] ⟨30, str "30.0"⟩ 100
      .session Session.new).1 = .ok (200, str "ab") := by
  obtain ⟨tick, answered⟩ := promptly_answered cutShort
  exact (@httpRequest_cutShort_iff (promptly cutShort) (str "http://localhost:8332/") localhost none []
    ⟨30, str "30.0"⟩ cutShort 100 Session.new .session _ _ (str "5") 5 rfl rfl
    (by constructor <;> simp only [maxTimeout] <;> norm_num) answered (by decide) rfl
    (by decide +kernel) (by decide) cutShort_complete (by decide)).2
    (promptly_not_late cutShort _ _)

end BitcoinCoreRpc
