/-
This file puts a node at the other end: it reads the bodies the client sends with a json
parser of its own, does what they ask in order, and replies in either dialect.

What a node does is an arbitrary function of its state, a method and parameters. The
first half is what it reads of a body, which is what the caller gave, member by member.
The second half is what the caller is answered, which is what the node did: the same for
a lone call and for the members of a batch, whatever the order its replies come in.
-/

import BitcoinCoreRpc.Call
import BitcoinCoreRpc.RoundTrip

namespace BitcoinCoreRpc

/-! ### A heap that grows -/

section Grown

variable {heap : Heap} {depth : Nat} {root : Obj} {value : Param}

/-- What is not the default object is at its place still in a heap that grew. -/
theorem object_append {ref : Ref} (more : Heap) (held : heap.object ref ≠ .other (str "object")) :
    (heap ++ more).object ref = heap.object ref := by
  unfold Heap.object at held ⊢
  by_cases inside : ref < heap.length
  · exact List.getD_append _ _ _ _ inside
  · exact absurd (List.getD_eq_default _ _ (Nat.le_of_not_lt inside)) held

theorem unfold_held (unfolds : heap.unfold depth root = some value) : root ≠ .other (str "object") := by
  rintro rfl
  cases depth <;> cases unfolds

theorem mapM_some_mono {α β : Type} {f g : α → Option β} {items : List α} {answers : List β}
    (agree : ∀ item ∈ items, ∀ answer, f item = some answer → g item = some answer)
    (collected : items.mapM f = some answers) : items.mapM g = some answers := by
  induction items generalizing answers with
  | nil => exact collected
  | cons item rest inductionHypothesis =>
    simp only [List.mapM_cons, Option.bind_eq_bind, Option.bind_eq_some_iff, Option.pure_def,
      Option.some.injEq] at collected ⊢
    obtain ⟨answer, first, others, last, rfl⟩ := collected
    exact ⟨answer, agree item List.mem_cons_self answer first, others,
      inductionHypothesis (fun other inside => agree other (List.mem_cons_of_mem _ inside)) last, rfl⟩

/-- A value unfolds to the same tree in a heap that grew. -/
theorem unfold_append (more : Heap) (unfolds : heap.unfold depth root = some value) :
    (heap ++ more).unfold depth root = some value := by
  induction depth generalizing root value with
  | zero => cases unfolds
  | succ depth inductionHypothesis =>
    have below (ref : Ref) (item : Param) (unfolded : heap.unfold depth (heap.object ref) = some item) :
        (heap ++ more).unfold depth ((heap ++ more).object ref) = some item := by
      rw [object_append more (unfold_held unfolded)]
      exact inductionHypothesis unfolded
    cases root with
    | dict members =>
      simp only [Heap.unfold, Option.bind_eq_bind, Option.bind_eq_some_iff] at unfolds ⊢
      obtain ⟨values, collected, once⟩ := unfolds
      refine ⟨values, mapM_some_mono ?_ collected, once⟩
      rintro ⟨name, item⟩ - entry named
      cases text : heap.object name with
      | str content =>
        simp only [text, Option.map_eq_some_iff] at named
        obtain ⟨inner, unfolded, rfl⟩ := named
        rw [object_append more (by rw [text]; rintro ⟨⟩), text]
        simp only [below item inner unfolded, Option.map_some]
      | _ => simp [text] at named
    | list items | tuple items =>
      obtain ⟨values, collected, rfl⟩ := Option.map_eq_some_iff.mp unfolds
      exact Option.map_eq_some_iff.mpr ⟨values, mapM_some_mono (fun ref _ => below ref) collected, rfl⟩
    | none | bool flag | int number | str text | decimal number => exact unfolds
    | _ => cases unfolds

/-- So does what is at a place of it. -/
theorem unfold_object_append {ref : Ref} (more : Heap)
    (unfolds : heap.unfold depth (heap.object ref) = some value) :
    (heap ++ more).unfold depth ((heap ++ more).object ref) = some value := by
  rw [object_append more (unfold_held unfolds)]
  exact unfold_append more unfolds

/-- A tree of so many levels unfolds within them. -/
theorem unfold_carried {levels : Nat} (carries : Carries heap levels root)
    (unfolds : heap.unfold depth root = some value) : heap.unfold levels root = some value := by
  induction carries generalizing depth value with
  | @leaf root levels scalar =>
    cases depth with
    | zero => cases unfolds
    | succ depth => cases root <;> first | exact unfolds | cases scalar
  | @container root levels kind named each inductionHypothesis =>
    cases depth with
    | zero => cases unfolds
    | succ depth =>
      cases root with
      | dict members =>
        simp only [Heap.unfold, Option.bind_eq_bind, Option.bind_eq_some_iff] at unfolds ⊢
        obtain ⟨values, collected, once⟩ := unfolds
        refine ⟨values, mapM_some_mono ?_ collected, once⟩
        rintro ⟨name, item⟩ inside entry unfolded
        cases text : heap.object name with
        | str content =>
          simp only [text, Option.map_eq_some_iff] at unfolded ⊢
          obtain ⟨inner, below, rfl⟩ := unfolded
          exact ⟨inner, inductionHypothesis item (List.mem_map_of_mem inside) below, rfl⟩
        | _ => simp [text] at unfolded
      | list items | tuple items =>
        obtain ⟨values, collected, rfl⟩ := Option.map_eq_some_iff.mp unfolds
        exact Option.map_eq_some_iff.mpr ⟨values, mapM_some_mono (fun ref inside _ below =>
          inductionHypothesis ref inside below) collected, rfl⟩
      | _ => cases kind

end Grown

/-! ### Another reader's limits -/

theorem mapM_ok_mono {α β : Type} {f g : α → Except Exc β} {items : List α} {answers : List β}
    (agree : ∀ item ∈ items, ∀ answer, f item = .ok answer → g item = .ok answer)
    (collected : items.mapM f = .ok answers) : items.mapM g = .ok answers := by
  have all := mapM_eq_ok.mp collected
  clear collected
  rw [mapM_eq_ok]
  induction all with
  | nil => exact .nil
  | cons first _ inductionHypothesis =>
    exact .cons (agree _ List.mem_cons_self _ first)
      (inductionHypothesis fun item inside => agree item (List.mem_cons_of_mem _ inside))

theorem mapM_of_forall₂ {α β : Type} {f : α → Option β} {items : List α} {answers : List β}
    (all : List.Forall₂ (fun item answer => f item = some answer) items answers) :
    items.mapM f = some answers := by
  induction all with
  | nil => rfl
  | cons first _ inductionHypothesis =>
    rw [List.mapM_cons, first, inductionHypothesis]
    rfl

theorem mapM_some_mem {α β : Type} {f : α → Option β} {items : List α} {answers : List β}
    (collected : items.mapM f = some answers) {item : α} (inside : item ∈ items) :
    ∃ answer, f item = some answer := by
  have all := mapM_eq_some collected
  clear collected
  induction all with
  | nil => cases inside
  | cons first _ inductionHypothesis =>
    rcases List.mem_cons.mp inside with rfl | later
    · exact ⟨_, first⟩
    · exact inductionHypothesis later

/-- One interpreter takes every integer another one writes. -/
def Interpreter.Takes (theirs ours : Interpreter) : Prop :=
  theirs.maxStrDigits = 0 ∨ (ours.maxStrDigits ≠ 0 ∧ ours.maxStrDigits ≤ theirs.maxStrDigits)

/-- A size past their limit is past ours. -/
theorem Interpreter.Takes.beyond {theirs ours : Interpreter} (takes : theirs.Takes ours)
    {size : Int} (beyond : theirs.maxStrDigits ≠ 0 ∧ (theirs.maxStrDigits : Int) < size) :
    ours.maxStrDigits ≠ 0 ∧ (ours.maxStrDigits : Int) < size := by
  unfold Interpreter.Takes at takes
  omega

/-- What one interpreter writes another that takes its integers would write, with as many frames
as the value has levels. -/
theorem requestJson_taken {theirs ours : Interpreter} (takes : theirs.Takes ours) {heap : Heap}
    {depth frames : Nat} {root : Obj} {value : Param} {text : Str}
    (unfolds : heap.unfold depth root = some value)
    (written : requestJson ours heap frames root = .ok text) :
    requestJson theirs heap depth root = .ok text := by
  induction depth generalizing frames root value text with
  | zero => cases unfolds
  | succ depth inductionHypothesis =>
    cases frames with
    | zero => cases written
    | succ frames =>
      cases root with
      | dict members =>
        simp only [Heap.unfold, Option.bind_eq_bind, Option.bind_eq_some_iff] at unfolds
        obtain ⟨values, unfolded, _⟩ := unfolds
        obtain ⟨texts, collected, same⟩ := bind_eq_ok written
        refine (congrArg (· >>= _) (mapM_ok_mono ?_ collected)).trans same
        rintro ⟨name, item⟩ inside entry ran
        obtain ⟨member, here⟩ := mapM_some_mem unfolded inside
        cases named : heap.object name with
        | str content =>
          simp only [named, Option.map_eq_some_iff] at here ran ⊢
          obtain ⟨inner, below, _⟩ := here
          obtain ⟨itemText, itemRan, shape⟩ := bind_eq_ok ran
          exact (congrArg (· >>= _) (inductionHypothesis below itemRan)).trans shape
        | _ => simp [named] at here
      | list items | tuple items =>
        obtain ⟨values, unfolded, _⟩ := Option.map_eq_some_iff.mp unfolds
        obtain ⟨texts, collected, same⟩ := bind_eq_ok written
        refine (congrArg (· >>= _) (mapM_ok_mono ?_ collected)).trans same
        intro item inside entry ran
        obtain ⟨inner, below⟩ := mapM_some_mem unfolded inside
        exact inductionHypothesis below ran
      | int number =>
        simp only [requestJson, dumpsScalar, dumpsInt] at written ⊢
        split_ifs at written with long
        have beyond := @Interpreter.Takes.beyond _ _ takes (natText number.natAbs).length
        rwa [if_neg fun past => long (by exact_mod_cast beyond (by exact_mod_cast past))]
      | decimal number =>
        cases number with
        | finite negative coefficient exponent =>
          simp only [requestJson, decimalJson] at written ⊢
          split_ifs at written with long
          rwa [if_neg fun beyond => long (takes.beyond beyond)]
        | _ => cases written
      | bool flag => cases flag <;> exact written
      | none | str content => exact written
      | _ => cases unfolds

/-! ### What a node reads -/

/-- What is asked of a node. -/
structure Ask where
  requestId : Str
  method : Str
  params : Json
deriving DecidableEq

/-- A request object as a node reads one. -/
def readRequest : Json → Option Ask
  | .object members =>
    match members.lookup (str "jsonrpc"), members.lookup (str "id"), members.lookup (str "method"),
        members.lookup (str "params") with
    | some (.string version), some (.string requestId), some (.string method), some params =>
      if version = str "2.0" then some ⟨requestId, method, params⟩ else none
    | _, _, _, _ => none
  | _ => none

/-- A request under a marker, as the tree the caller's objects unfold to. -/
def markedParam (marker requestId method : Str) (params : Param) : Param :=
  .dict [(str "jsonrpc", .str marker), (str "id", .str requestId), (str "method", .str method),
    (str "params", params)]

/-- The request of a method. -/
def requestParam (requestId method : Str) (params : Param) : Param :=
  markedParam (str "2.0") requestId method params

/-- A text is one a peer reads as it was written: it has no lone surrogate. -/
def Whole (text : Str) : Prop := ∀ code ∈ text, Utf8.IsScalar code

/-- A request is read as what the caller gave. -/
theorem readRequest_equal {requestId method : Str} {params : Param} {read : Json}
    (equal : Equal (requestParam requestId method params) read) :
    ∃ params', readRequest read = some ⟨requestId, method, params'⟩ ∧ Equal params params' := by
  cases equal with
  | dict _ members names all =>
    obtain ⟨⟨_, version⟩, ⟨_, ours⟩, ⟨_, asked⟩, ⟨_, given⟩, rfl⟩ :=
      List.length_eq_four.mp (by simpa using (congrArg List.length names).symm)
    simp only [List.map_cons, List.map_nil, List.cons.injEq, and_true] at names
    obtain ⟨rfl, rfl, rfl, rfl⟩ := names
    simp only [List.map_cons, List.map_nil, List.forall₂_cons, List.forall₂_nil_left_iff,
      and_true] at all
    obtain ⟨first, second, third, last⟩ := all
    cases first
    cases second
    cases third
    exact ⟨given, rfl, last⟩

theorem object_new (heap : Heap) (more : Heap) (offset : Nat) :
    (heap ++ more).object (heap.length + offset) = more.getD offset (.other (str "object")) := by
  unfold Heap.object
  rw [List.getD_append_right _ _ _ _ (Nat.le_add_right _ _), Nat.add_sub_cancel_left]

/-- A `dict` unfolds to what its names and its items do, no name being there twice. -/
theorem unfold_dict {heap : Heap} {levels : Nat} {members : List (Ref × Ref)}
    {values : List (Str × Param)} (distinct : (values.map Prod.fst).Nodup)
    (each : List.Forall₂ (fun member value => heap.object member.1 = .str value.1 ∧
      heap.unfold levels (heap.object member.2) = some value.2) members values) :
    heap.unfold (levels + 1) (.dict members) = some (.dict values) := by
  simp only [Heap.unfold, Option.bind_eq_bind, Option.bind_eq_some_iff]
  refine ⟨values, ?_, if_pos distinct⟩
  clear distinct
  induction each with
  | nil => rfl
  | cons first _ inductionHypothesis =>
    rw [List.mapM_cons, inductionHypothesis, first.1]
    simp only [first.2, Option.map_some]
    rfl

/-- The objects of a request under a marker unfold to it. -/
theorem markedObjects_unfold {heap : Heap} {levels : Nat} {method : Ref} {name : Str}
    (marker requestId : Str) {member : Obj} {value : Param} (named : heap.object method = .str name)
    (unfolds : heap.unfold levels member = some value) {grown : Heap}
    (objects : grown = heap ++ [.str (str "jsonrpc"), .str marker, .str (str "id"), .str requestId,
      .str (str "method"), .str (str "params"), member,
      .dict [(heap.length, heap.length + 1), (heap.length + 2, heap.length + 3),
        (heap.length + 4, method), (heap.length + 5, heap.length + 6)]]) :
    grown.unfold (levels + 1) (grown.object (heap.length + 7)) =
      some (markedParam marker requestId name value) := by
  obtain ⟨levels, rfl⟩ : ∃ fewer, levels = fewer + 1 := by
    cases levels with
    | zero => cases unfolds
    | succ fewer => exact ⟨fewer, rfl⟩
  subst objects
  rw [object_new]
  have distinct : [str "jsonrpc", str "id", str "method", str "params"].Nodup := by decide +kernel
  refine unfold_dict distinct (.cons ⟨?_, ?_⟩ (.cons ⟨?_, ?_⟩ (.cons ⟨?_, ?_⟩
    (.cons ⟨?_, ?_⟩ .nil))))
  · exact object_new heap _ 0
  · rw [object_new]
    rfl
  · rw [object_new]
    rfl
  · rw [object_new]
    rfl
  · rw [object_new]
    rfl
  · rw [object_append _ (by rw [named]; rintro ⟨⟩), named]
    rfl
  · rw [object_new]
    rfl
  · rw [object_new]
    exact unfold_append _ unfolds

/-- The objects of a request unfold to it. -/
theorem allocRequest_unfolds {heap : Heap} {levels : Nat} {method : Ref} {name : Str}
    (requestId : Str) {member : Obj} {value : Param} (named : heap.object method = .str name)
    (unfolds : heap.unfold levels member = some value) :
    ∃ more root, heap.allocRequest requestId method member = (heap ++ more, root) ∧
      (heap ++ more).unfold (levels + 1) ((heap ++ more).object root) =
        some (requestParam requestId name value) :=
  ⟨_, _, rfl, markedObjects_unfold (str "2.0") requestId named unfolds rfl⟩

/-- What a node needs of the peer it reads: its parser takes the integers that one writes, and
what nests no deeper than a batch of the deepest parameters. -/
structure Interpreter.Reads (theirs ours : Interpreter) : Prop where
  takes : theirs.Takes ours
  nesting : maxParamsDepth + 3 ≤ theirs.nesting

/-- The tree the parameters of a call unfold to, every leaf of it one the peer restores. -/
def Given (theirs : Interpreter) (heap : Heap) (params : Ref) (value : Param) : Prop :=
  value.Every (Restorable theirs) ∧ ∃ member depth,
    paramsMember (heap.object params) = .ok member ∧ heap.unfold depth member = some value

section Reading

variable {theirs ours : Interpreter} {heap : Heap} {frames : Nat}

theorem requestBody_read (takes : theirs.Takes ours) {levels : Nat} {root : Obj} {value : Param}
    {body : Bytes} (room : levels ≤ theirs.nesting) (unfolds : heap.unfold levels root = some value)
    (restorable : value.Every (Restorable theirs)) (sent : requestBody ours heap frames root = .ok body) :
    ∃ read, loads theirs body = .ok read ∧ Equal value read := by
  unfold requestBody at sent
  split at sent
  · rename_i text written
    cases sent
    have taken := requestJson_taken takes unfolds written
    exact (requestJson_written theirs heap levels levels root value text unfolds taken).reads
      restorable room
  · split_ifs at sent

theorem requestParam_restorable {requestId method : Str} {params : Param} (ids : Whole requestId)
    (named : Whole method) (restorable : params.Every (Restorable theirs)) :
    (requestParam requestId method params).Every (Restorable theirs) := by
  have fixed : ∀ text ∈ [str "jsonrpc", str "2.0", str "id", str "method", str "params"],
      Whole text := by
    unfold Whole Utf8.IsScalar Utf8.Admits
    decide +kernel
  simp only [List.forall_mem_cons, List.not_mem_nil, false_imp_iff, implies_true, and_true] at fixed
  obtain ⟨marker, version, own, asked, given⟩ := fixed
  exact ⟨marker, version, own, ids, asked, named, given, restorable, trivial⟩

/-- A node reads of the body of a call what the caller gave. -/
theorem request_read (reads : theirs.Reads ours) {client : RpcClient} {requestId : Str}
    {method params : Ref} {requestTimeout : Option Timeout} {name : Str} {body : Bytes}
    {timeout : Timeout} {value : Param} (given : Given theirs heap params value)
    (ids : Whole requestId) (named : Whole name)
    (built : client.request ours heap frames requestId method params requestTimeout =
      .ok (name, body, timeout)) :
    ∃ request params', loads theirs body = .ok request ∧
      readRequest request = some ⟨requestId, name, params'⟩ ∧ Equal value params' := by
  obtain ⟨restorable, member, depth, shaped, unfolds⟩ := given
  have text := (request_eq_ok built).1
  unfold RpcClient.request at built
  rw [text] at built
  simp only [] at built
  obtain ⟨_, _, afterTimed⟩ := bind_eq_ok built
  obtain ⟨member', shaped', afterShaped⟩ := bind_eq_ok afterTimed
  rw [shaped] at shaped'
  cases shaped'
  obtain ⟨_, walked, afterWalked⟩ := bind_eq_ok afterShaped
  obtain ⟨body', written, ended⟩ := bind_eq_ok afterWalked
  cases ended
  have shallow := unfold_carried (assertJsonParams_sound walked) unfolds
  obtain ⟨more, root, alloc, asTree⟩ := allocRequest_unfolds requestId text shallow
  rw [alloc] at written
  obtain ⟨request, parsed, equal⟩ := requestBody_read reads.takes
    ((Nat.le_succ _).trans reads.nesting) asTree (requestParam_restorable ids named restorable) written
  obtain ⟨params', read, same⟩ := readRequest_equal equal
  exact ⟨request, params', parsed, read, same⟩

/-- A member of a batch gives a method by its name and parameters by their tree. -/
def Asks (theirs : Interpreter) (heap : Heap) (pair : Ref × Ref) (call : Str × Param) : Prop :=
  heap.object pair.1 = .str call.1 ∧ Whole call.1 ∧ Given theirs heap pair.2 call.2

/-- The levels a request of a batch unfolds within. -/
def requestLevels : Nat := maxParamsDepth + 2

/-- One member's request unfolds to it, in the heap it grew. -/
theorem batchMemberRequest_unfolds {pair : Ref × Ref} {call : Str × Param} (grown : Heap)
    (asks : Asks theirs heap pair call) {index : Nat} {requestId : Str} {next : Heap} {member : Ref}
    (built : batchMemberRequest (heap ++ grown) index pair.1 pair.2 requestId = .ok (next, member)) :
    ∃ more, next = heap ++ (grown ++ more) ∧ next.unfold requestLevels (next.object member) =
      some (requestParam requestId call.1 call.2) := by
  obtain ⟨named, _, _, object, depth, shaped, unfolds⟩ := asks
  have here : (heap ++ grown).object pair.1 = .str call.1 := by
    rw [object_append grown (by rw [named]; rintro ⟨⟩), named]
  have there : (heap ++ grown).object pair.2 = heap.object pair.2 := by
    refine object_append grown fun default => ?_
    rw [default] at shaped
    cases shaped
  simp only [batchMemberRequest, here, there, shaped, bind, Except.bind] at built
  split at built
  · rename_i object' walked
    split at walked
    · cases walked
    · rename_i accepted
      cases walked
      have shallow := unfold_carried (assertJsonParams_sound accepted) (unfold_append grown unfolds)
      obtain ⟨more, root, alloc, asTree⟩ := allocRequest_unfolds requestId here shallow
      rw [alloc] at built
      cases built
      exact ⟨more, List.append_assoc _ _ _, asTree⟩
  all_goals cases built

/-- The requests of a batch. -/
def batchParams (calls : List (Str × Param)) (requestIds : List Str) : List Param :=
  (calls.zip requestIds).map fun (call, requestId) => requestParam requestId call.1 call.2

/-- The members' requests unfold to theirs, in the heap all of them grew. -/
theorem foldlM_requests {pairs : List (Ref × Ref)} {calls : List (Str × Param)}
    (asks : List.Forall₂ (Asks theirs heap) pairs calls) :
    ∀ (requestIds : List Str) (index : Nat) (grown : Heap) (done : List Ref) (requests : Heap)
      (members : List Ref),
      ((pairs.zip requestIds).zipIdx index).foldlM
        (fun (heap, members) (((method, params), requestId), index) => do
          let (heap, member) ← batchMemberRequest heap index method params requestId
          return (heap, members ++ [member])) (heap ++ grown, done) =
            (.ok (requests, members) : Except Exc (Heap × List Ref)) →
      ∃ more added, requests = heap ++ (grown ++ more) ∧ members = done ++ added ∧
        List.Forall₂ (fun member request => requests.unfold requestLevels (requests.object member) =
          some request) added (batchParams calls requestIds) := by
  induction asks with
  | nil =>
    intro requestIds index grown done requests members built
    cases built
    exact ⟨[], [], by rw [List.append_nil], by rw [List.append_nil], .nil⟩
  | @cons pair call pairs calls first _ inductionHypothesis =>
    intro requestIds index grown done requests members built
    cases requestIds with
    | nil =>
      cases built
      exact ⟨[], [], by rw [List.append_nil], by rw [List.append_nil], .nil⟩
    | cons requestId requestIds =>
      obtain ⟨⟨next, started⟩, stepped, onward⟩ := bind_eq_ok built
      obtain ⟨⟨next', member⟩, memberBuilt, same⟩ := bind_eq_ok stepped
      cases same
      obtain ⟨fresh, rfl, asTree⟩ := batchMemberRequest_unfolds grown first memberBuilt
      obtain ⟨more, added, rfl, rfl, each⟩ := inductionHypothesis requestIds (index + 1) _ _ _ _ onward
      refine ⟨fresh ++ more, member :: added, by simp only [List.append_assoc],
        List.append_assoc _ _ _, .cons ?_ each⟩
      rw [← List.append_assoc, ← List.append_assoc]
      have := unfold_object_append more asTree
      simpa only [List.append_assoc] using this

/-- What is asked of a node is what a caller gave under an id. -/
def Conveys (call : Str × Param) (requestId : Str) (ask : Ask) : Prop :=
  ask.requestId = requestId ∧ ask.method = call.1 ∧ Equal call.2 ask.params

theorem batchParams_restorable {pairs : List (Ref × Ref)} {calls : List (Str × Param)}
    (asks : List.Forall₂ (Asks theirs heap) pairs calls) {requestIds : List Str}
    (ids : ∀ requestId ∈ requestIds, Whole requestId) :
    EveryItem (Restorable theirs) (batchParams calls requestIds) := by
  induction asks generalizing requestIds with
  | nil => exact trivial
  | cons first _ inductionHypothesis =>
    cases requestIds with
    | nil => exact trivial
    | cons requestId requestIds =>
      rw [List.forall_mem_cons] at ids
      exact ⟨requestParam_restorable ids.1 first.2.1 first.2.2.1, inductionHypothesis ids.2⟩

/-- Requests are read as what the caller gave. -/
theorem readRequest_batch {calls : List (Str × Param)} :
    ∀ {requestIds : List Str} {requests : List Json},
      List.Forall₂ Equal (batchParams calls requestIds) requests →
      ∃ asks, requests.mapM readRequest = some asks ∧
        List.Forall₂ (fun slot ask => Conveys slot.1 slot.2 ask) (calls.zip requestIds) asks := by
  induction calls with
  | nil =>
    intro requestIds requests equal
    cases equal
    exact ⟨[], rfl, .nil⟩
  | cons call calls inductionHypothesis =>
    intro requestIds requests equal
    cases requestIds with
    | nil =>
      cases equal
      exact ⟨[], rfl, .nil⟩
    | cons requestId requestIds =>
      cases equal with
      | cons first rest =>
        obtain ⟨params', read, same⟩ := readRequest_equal first
        obtain ⟨asks, others, each⟩ := inductionHypothesis rest
        refine ⟨⟨requestId, call.1, params'⟩ :: asks, ?_, .cons ⟨rfl, rfl, same⟩ each⟩
        rw [List.mapM_cons, read, others]
        rfl

theorem asks_methods {pairs : List (Ref × Ref)} {calls : List (Str × Param)}
    (asks : List.Forall₂ (Asks theirs heap) pairs calls) :
    (pairs.map fun pair => heap.methodName pair.1) = calls.map Prod.fst := by
  induction asks with
  | nil => rfl
  | cons first _ inductionHypothesis =>
    rw [List.map_cons, List.map_cons, inductionHypothesis, Heap.methodName, first.1]

/-- A node reads of the body of a batch what the caller gave, member by member. -/
theorem batchRequest_read (reads : theirs.Reads ours) {rpcIds : Nat → Str}
    {validTimeout : Except Exc Unit} {calls : Obj} {pairs : List (Ref × Ref)}
    {asked : List (Str × Param)} {methods requestIds : List Str} {body : Bytes}
    (paired : batchPairs heap calls = .ok pairs)
    (asks : List.Forall₂ (Asks theirs heap) pairs asked) (ids : ∀ index, Whole (rpcIds index))
    (sent : batchRequest ours heap frames rpcIds validTimeout calls =
      .ok (methods, requestIds, body)) :
    methods = asked.map Prod.fst ∧ requestIds = (List.range asked.length).map rpcIds ∧
      ∃ requests asks', loads theirs body = .ok (.array requests) ∧
        requests.mapM readRequest = some asks' ∧
        List.Forall₂ (fun slot ask => Conveys slot.1 slot.2 ask) (asked.zip requestIds) asks' := by
  obtain ⟨pairs', paired', afterPairs⟩ := bind_eq_ok sent
  rw [paired] at paired'
  cases paired'
  split_ifs at afterPairs
  obtain ⟨_, _, afterTimeout⟩ := bind_eq_ok afterPairs
  obtain ⟨⟨requests, members⟩, built, afterMembers⟩ := bind_eq_ok afterTimeout
  obtain ⟨body', written, ended⟩ := bind_eq_ok afterMembers
  cases ended
  obtain ⟨more, added, grown, rfl, each⟩ :=
    foldlM_requests asks _ 0 [] [] requests members (by rw [List.append_nil]; exact built)
  have unfolds : requests.unfold (requestLevels + 1) (.list members) =
      some (.list (batchParams asked ((List.range pairs.length).map rpcIds))) :=
    Option.map_eq_some_iff.mpr ⟨_, mapM_of_forall₂ each, rfl⟩
  obtain ⟨read, parsed, equal⟩ := requestBody_read reads.takes reads.nesting unfolds
    (batchParams_restorable asks fun requestId inside => by
      obtain ⟨index, _, rfl⟩ := List.mem_map.mp inside
      exact ids index) written
  cases equal with
  | list _ replies all =>
    obtain ⟨asks', read, conveys⟩ := readRequest_batch all
    exact ⟨asks_methods asks, by rw [asks.length_eq], replies, asks', parsed, read, conveys⟩

end Reading

/-! ### What a node does -/

/-- An error a node answers with. -/
structure Failure where
  code : Int
  message : Str
  data : Json
deriving DecidableEq

/-- What a node in a state does when a method is called with some parameters. -/
abbrev Node (State : Type) := State → Str → Json → Except Failure Json × State

/-- What it does when it is asked several things, in order. -/
def Node.run {State : Type} (node : Node State) : State → List Ask →
    List (Except Failure Json) × State
  | state, [] => ([], state)
  | state, ask :: rest =>
    let (outcome, state) := node state ask.method ask.params
    let (outcomes, state) := node.run state rest
    (outcome :: outcomes, state)

/-- An error object that tells a failure. -/
def Failure.Told (failure : Failure) (error : Json) : Prop :=
  ∃ members, error = .object members ∧ Dict.get members (str "code") = .int failure.code ∧
    Dict.get members (str "message") = .string failure.message ∧
    Dict.get members (str "data") = failure.data

/-- The replies that tell an outcome. A node of the 2.0 dialect answers under a 200 with one of the
two members; an older one with both, one of them `null`, and an error under whatever status. -/
inductive Replies (requestId : Str) : Except Failure Json → Nat → Dict → Prop
  | result {value : Json} {reply : Dict} (own : Correlated requestId reply)
    (marked : reply.lookup (str "jsonrpc") = some (.string (str "2.0")))
    (answer : reply.lookup (str "result") = some value) (silent : reply.lookup (str "error") = none) :
    Replies requestId (.ok value) 200 reply
  | error {failure : Failure} {reply : Dict} {error : Json} (own : Correlated requestId reply)
    (marked : reply.lookup (str "jsonrpc") = some (.string (str "2.0")))
    (answer : reply.lookup (str "error") = some error) (told : failure.Told error)
    (silent : reply.lookup (str "result") = none) : Replies requestId (.error failure) 200 reply
  | legacyResult {value : Json} {reply : Dict} (own : Correlated requestId reply)
    (unmarked : reply.lookup (str "jsonrpc") = none)
    (answer : reply.lookup (str "result") = some value)
    (silent : Dict.get reply (str "error") = .null) : Replies requestId (.ok value) 200 reply
  | legacyError {failure : Failure} {status : Nat} {reply : Dict} {error : Json}
    (own : Correlated requestId reply) (unmarked : reply.lookup (str "jsonrpc") = none)
    (answer : Dict.get reply (str "error") = error) (told : failure.Told error) :
    Replies requestId (.error failure) status reply

/-- What a caller is told of an outcome. -/
def told (where_ : Str) : Except Failure Json → Except Exc Json
  | .ok value => .ok value
  | .error failure =>
    .error (.rpcError (where_ ++ str ": " ++ failure.message) failure.code failure.data)

/-- What the list of a batch holds for an outcome. -/
def toldEntry (where_ : Str) : Except Failure Json → BatchEntry
  | .ok value => .result value
  | .error failure =>
    .rpcError (where_ ++ str ": " ++ failure.message) failure.code failure.data

theorem toldEntry_outcome (where_ : Str) (outcome : Except Failure Json) :
    (toldEntry where_ outcome).outcome = told where_ outcome := by
  cases outcome <;> rfl

theorem rpcError_told (py : Interpreter) (where_ : Str) {failure : Failure} {error : Json}
    (told : failure.Told error) : rpcError py where_ error =
      .rpcError (where_ ++ str ": " ++ failure.message) failure.code failure.data := by
  obtain ⟨members, rfl, code, message, data⟩ := told
  simp only [rpcError, code, message, data]

/-- A reply that tells an outcome is read as the outcome. -/
theorem discriminate_replies (py : Interpreter) (where_ : Str) {requestId : Str} {status : Nat}
    {reply : Dict} {outcome : Except Failure Json} (replies : Replies requestId outcome status reply) :
    discriminate py where_ requestId status reply = told where_ outcome := by
  have ours (own : Correlated requestId reply) :
      (Dict.get reply (str "id")).isStr requestId = true := isStr_iff.mpr own
  cases replies with
  | result own marked answer silent =>
    simp only [discriminate, v2Result, Dict.has, Dict.getItem, ours own, marked, answer, silent]
    rfl
  | error own marked answer told silent =>
    simp only [discriminate, v2Result, Dict.has, Dict.getItem, ours own, marked, answer, silent]
    exact congrArg Except.error (rpcError_told py where_ told)
  | legacyResult own unmarked answer silent =>
    simp only [discriminate, legacyResult, Dict.has, Dict.getItem, ours own, unmarked, answer,
      silent]
    rfl
  | @legacyError _ _ _ error own unmarked answer told =>
    have loud : error.isNone = false := by
      obtain ⟨members, rfl, _⟩ := told
      rfl
    simp only [discriminate, legacyResult, Dict.has, ours own, unmarked, answer, loud,
      rpcError_told py where_ told]
    rfl

/-! ### A lone call -/

/-- A node answers a body under a status and with a payload: what it reads of the body it does, and
the payload is read as a reply that tells the outcome. -/
def Node.Serves {State : Type} (node : Node State) (theirs ours : Interpreter) (state : State)
    (body : Bytes) (status : Nat) (payload : Bytes) : Prop :=
  ∀ request ask, loads theirs body = .ok request → readRequest request = some ask →
    ∃ reply, loads ours payload = .ok (.object reply) ∧
      Replies ask.requestId (node state ask.method ask.params).1 status reply

section Serving

variable {State : Type} {node : Node State} {state : State} {world : World} {theirs : Interpreter}
  {heap : Heap} {frames : Nat} {client : RpcClient} {cookie : CookieFile} {requestId : Str}
  {method params : Ref} {requestTimeout : Option Timeout} {maxBodySize : Int}
  {session after : Session} {name authorization : Str} {body payload : Bytes} {timeout : Timeout}
  {value : Param} {status : Nat}

/-- A reply of the node to a request that is read is what the call answers. -/
theorem call_of_served (reads : theirs.Reads world.py) (given : Given theirs heap params value)
    (ids : Whole requestId) (named : Whole name)
    (built : client.request world.py heap frames requestId method params requestTimeout =
      .ok (name, body, timeout))
    (authorized : client.authHeader cookie = .ok authorization)
    (carried : httpRequest world client.url (some body) (RpcClient.headers authorization) timeout
      maxBodySize client.transport session = (.ok (status, payload), after))
    (serves : node.Serves theirs world.py state body status payload) :
    ∃ request params', loads theirs body = .ok request ∧
      readRequest request = some ⟨requestId, name, params'⟩ ∧ Equal value params' ∧
      client.call world heap frames cookie requestId method params requestTimeout maxBodySize session =
        (told (name ++ str " at " ++ client.url) (node state name params').1, after) := by
  obtain ⟨request, params', parsed, read, same⟩ := request_read reads given ids named built
  obtain ⟨reply, replied, replies⟩ := serves request _ parsed read
  refine ⟨request, params', parsed, read, same, ?_⟩
  have object : replyObject (loads world.py) (name ++ str " at " ++ client.url) status payload =
      .ok reply := by
    simp only [replyObject, parsedJsonBody, replied, bind, Except.bind]
  have answered : result world.py (loads world.py) name client.url requestId status payload =
      told (name ++ str " at " ++ client.url) (node state name params').1 := by
    simp only [result, object, bind, Except.bind]
    exact discriminate_replies world.py _ replies
  simp only [RpcClient.call, built, authorized, carried, answered]

end Serving

/-- A call answers what the node did with what the caller gave. Whatever the node does, whichever
dialect it replies in and whatever carries the body to it: the body of a request is read as one
call of the method the caller named, with parameters equal to the caller's, and where the node's
reply comes back the call returns the value or raises the error of that very call. -/
theorem call_served {State : Type} (node : Node State) (state : State) (world : World)
    (theirs : Interpreter) (heap : Heap) (frames : Nat) (client : RpcClient) (cookie : CookieFile)
    (requestId : Str) (method params : Ref) (requestTimeout : Option Timeout) (maxBodySize : Int)
    (session after : Session) (name authorization : Str) (body payload : Bytes) (timeout : Timeout)
    (value : Param) (status : Nat) (reads : theirs.Reads world.py)
    (given : Given theirs heap params value) (ids : Whole requestId) (named : Whole name)
    (built : client.request world.py heap frames requestId method params requestTimeout =
      .ok (name, body, timeout))
    (authorized : client.authHeader cookie = .ok authorization)
    (carried : httpRequest world client.url (some body) (RpcClient.headers authorization) timeout
      maxBodySize client.transport session = (.ok (status, payload), after))
    (serves : node.Serves theirs world.py state body status payload) :
    ∃ request params', loads theirs body = .ok request ∧
      readRequest request = some ⟨requestId, name, params'⟩ ∧ Equal value params' ∧
      client.call world heap frames cookie requestId method params requestTimeout maxBodySize session =
        (told (name ++ str " at " ++ client.url) (node state name params').1, after) :=
  call_of_served reads given ids named built authorized carried serves

/-- A request each check of which passes is the body that is written. -/
theorem request_of_written {py : Interpreter} {heap : Heap} {frames : Nat} {client : RpcClient}
    {requestId : Str} {method params : Ref} {name : Str} {body : Bytes} {member : Obj}
    (named : heap.object method = .str name)
    (waits : 0 < client.timeout.seconds ∧ client.timeout.seconds ≤ maxTimeout)
    (shaped : paramsMember (heap.object params) = .ok member)
    (walked : assertJsonParams heap (maxParamsDepth + 1) [] (str "params") none member = .ok ())
    (written : requestBody py (heap.allocRequest requestId method member).1 frames
      ((heap.allocRequest requestId method member).1.object
        (heap.allocRequest requestId method member).2) = .ok body) :
    client.request py heap frames requestId method params none =
      .ok (name, body, client.timeout) := by
  have timed : assertValidTimeout client.timeout (str "rpc request_timeout") = .ok () := if_pos waits
  simp only [RpcClient.request, named, Option.getD_none, timed, shaped, walked, bind, Except.bind,
    written]
  rfl

/-- A node that is starting up: it refuses whatever it is asked. -/
def startingUp : Node Unit := fun _ _ _ => (.error ⟨-28, str "loading", .null⟩, ())

/-- A parser that puts no limit on integers and nests as deep as a node's. -/
def nodeReader : Interpreter := { cpython with maxStrDigits := 0, nesting := 512 }

theorem nodeReader_reads : nodeReader.Reads cpython where
  takes := .inl rfl
  nesting := by decide

/-- A client that asks over urllib. -/
def asking : RpcClient :=
  ⟨str "http://localhost:8332/", some (str "u"), some (str "p"), none, ⟨30, str "30.0"⟩, .urlopen⟩

theorem asking_waits : 0 < asking.timeout.seconds ∧ asking.timeout.seconds ≤ maxTimeout := by
  constructor <;> simp only [asking, maxTimeout] <;> norm_num

/-- What `getblockcount` is sent as. -/
def countRequest : Bytes :=
  str "\x7b\"jsonrpc\": \"2.0\", \"id\": \"a\", \"method\": \"getblockcount\", \"params\": []\x7d"

/-- What it replies, in the older dialect. -/
def startingUpReply : Bytes :=
  str "\x7b\"result\":null,\"error\":\x7b\"code\":-28,\"message\":\"loading\"\x7d," ++
    str "\"id\":\"a\"\x7d"

theorem startingUpReply_parsed : loads cpython startingUpReply = .ok (.object [(str "result", .null),
    (str "error", .object [(str "code", .int (-28)), (str "message", .string (str "loading"))]),
    (str "id", .string (str "a"))]) := by
  decide +kernel

/-- A peer that answers it, under a 500. -/
def refusing : World := promptly ⟨500, none, false, [.octets 0x7B startingUpReply.tail]⟩

/-- The refusal is raised as the rpc error of the call. -/
theorem call_served_startingUp :
    ∃ after, asking.call refusing twoCalls 50 .absent (str "a") 0 1 none 100 Session.new =
      (.error (.rpcError (str "getblockcount at http://localhost:8332/: loading") (-28) .null),
        after) := by
  have received : loads nodeReader countRequest = .ok (.object [(str "jsonrpc", .string (str "2.0")),
      (str "id", .string (str "a")), (str "method", .string (str "getblockcount")),
      (str "params", .array [])]) := by decide +kernel
  have built : asking.request cpython twoCalls 50 (str "a") 0 1 none =
      .ok (str "getblockcount", countRequest, asking.timeout) :=
    request_of_written rfl asking_waits rfl rfl (by decide +kernel)
  have serves : startingUp.Serves nodeReader cpython () countRequest 500 startingUpReply := by
    intro request ask parsed read
    rw [received] at parsed
    cases parsed
    cases read
    exact ⟨_, startingUpReply_parsed, .legacyError rfl rfl rfl ⟨_, rfl, rfl, rfl, rfl⟩⟩
  have plain : Whole (str "a") ∧ Whole (str "getblockcount") := by
    unfold Whole Utf8.IsScalar Utf8.Admits
    decide +kernel
  obtain ⟨request, params', _, _, _, called⟩ := call_served startingUp () refusing nodeReader twoCalls 50
    asking .absent (str "a") 0 1 none 100 Session.new _ _ (str "Basic dTpw") _ startingUpReply _
    (.list []) 500 nodeReader_reads ⟨trivial, .list [], 1, rfl, rfl⟩ plain.1 plain.2 built (by decide +kernel)
    (Prod.ext (by decide +kernel) rfl) serves
  exact ⟨_, called⟩

/-! ### A batch -/

/-- A node answers the body of a batch with a payload: what it reads of it it does in order, and the
payload is read as replies that tell the outcomes, in any order. -/
def Node.ServesBatch {State : Type} (node : Node State) (theirs ours : Interpreter) (state : State)
    (body payload : Bytes) : Prop :=
  ∀ requests asks, loads theirs body = .ok (.array requests) → requests.mapM readRequest = some asks →
    ∃ replies : List Dict, (∃ arrived, loads ours payload = .ok (.array arrived) ∧
        arrived.Perm (replies.map .object)) ∧
      List.Forall₂ (fun slot reply => Replies slot.1.requestId slot.2 200 reply)
        (asks.zip (node.run state asks).1) replies

theorem Replies.own {requestId : Str} {outcome : Except Failure Json} {status : Nat} {reply : Dict}
    (replies : Replies requestId outcome status reply) : Correlated requestId reply := by
  cases replies <;> assumption

theorem Node.run_length {State : Type} (node : Node State) (state : State) (asks : List Ask) :
    (node.run state asks).1.length = asks.length := by
  induction asks generalizing state with
  | nil => rfl
  | cons ask rest inductionHypothesis => exact congrArg (· + 1) (inductionHypothesis _)

/-- What the list of a batch holds for what was asked and what came of it. -/
def toldBatch (url : Str) (asks : List Ask) (outcomes : List (Except Failure Json)) : List BatchEntry :=
  (asks.zip outcomes).zipIdx.map fun ((ask, outcome), index) =>
    toldEntry (ask.method ++ str " at " ++ url ++ str " (call_batch member " ++ natText index ++
      str ")") outcome

theorem forall₂_map_eq {α β γ : Type} {f : α → γ} {g : β → γ} {firsts : List α} {seconds : List β}
    (all : List.Forall₂ (fun first second => f first = g second) firsts seconds) :
    firsts.map f = seconds.map g := by
  rwa [← List.forall₂_eq_eq_eq, List.forall₂_map_left_iff, List.forall₂_map_right_iff]

/-- Replies that are each of an id of its own are told apart by the ids. -/
theorem attributed_own {requestIds : List Str} {replies : List Dict}
    (own : List.Forall₂ Correlated requestIds replies) (distinct : requestIds.Nodup) :
    Attributed requestIds (replies.map .object) := by
  have names : (requestIds.zip replies).map Prod.fst = requestIds :=
    List.map_fst_zip (Nat.le_of_eq own.length_eq)
  refine ⟨by rw [List.length_map, own.length_eq], requestIds.zip replies, ?_, ?_, ?_⟩
  · clear distinct names
    induction own with
    | nil => rfl
    | cons first _ inductionHypothesis =>
      rw [List.map_cons, List.map_cons, inductionHypothesis, replyKey_eq_some.mpr ⟨rfl, first⟩]
      rfl
  · rwa [names]
  · rw [names]
    exact fun _ inside => inside

/-- The entries of what is entered under the ids tell the outcomes. -/
theorem batchEntries_told (py : Interpreter) (url : Str) {byId : ById} {asks : List Ask} :
    ∀ {outcomes : List (Except Failure Json)} {replies : List Dict} (start : Nat),
      asks.length = outcomes.length →
      List.Forall₂ (fun slot reply => byId.lookup slot.1.requestId = some reply ∧
        Replies slot.1.requestId slot.2 200 reply) (asks.zip outcomes) replies →
      (((asks.map Ask.method).zip (asks.map Ask.requestId)).zipIdx start).mapM
        (fun ((method, requestId), index) => batchEntry py url byId method index requestId) =
          .ok (((asks.zip outcomes).zipIdx start).map fun ((ask, outcome), index) =>
            toldEntry (ask.method ++ str " at " ++ url ++ str " (call_batch member " ++
              natText index ++ str ")") outcome) := by
  induction asks with
  | nil =>
    intro outcomes replies start size told
    rfl
  | cons ask asks inductionHypothesis =>
    intro outcomes replies start size told
    cases outcomes with
    | nil => cases size
    | cons outcome outcomes =>
      cases told with
      | @cons _ reply _ _ first rest =>
        have entry := (@batchEntry_eq_ok py url byId ask.method start ask.requestId reply first.1 _).mpr
          ((discriminate_replies py _ first.2).trans (toldEntry_outcome _ outcome).symm)
        have others := inductionHypothesis (start + 1) (Nat.succ.inj size) rest
        simp only [List.map_cons, List.zip_cons_cons, List.zipIdx_cons, List.mapM_cons, entry, others]
        rfl

/-- A batch answers what the node did with what the caller gave, in the caller's order. Whatever the
node does, whichever dialect it replies in and in whatever order its replies come: the pairs are the
items of `calls`, in order, the body is read as the members' calls, each of the method its member
named with parameters equal to the member's, the node is taken through them in order, and the list
that is returned holds what came of each at its own place. -/
theorem callBatch_served {State : Type} (node : Node State) (state : State) (theirs ours : Interpreter)
    (heap : Heap) (frames : Nat) (url : Str) (rpcIds : Nat → Str) (validTimeout : Except Exc Unit)
    (httpRequest : Bytes → Except Exc (Nat × Bytes)) (calls : Obj) (pairs : List (Ref × Ref))
    (asked : List (Str × Param)) (methods requestIds : List Str) (body payload : Bytes)
    (reads : theirs.Reads ours) (paired : batchPairs heap calls = .ok pairs)
    (asks : List.Forall₂ (Asks theirs heap) pairs asked) (ids : ∀ index, Whole (rpcIds index))
    (sent : batchRequest ours heap frames rpcIds validTimeout calls =
      .ok (methods, requestIds, body)) (distinct : requestIds.Nodup)
    (carried : httpRequest body = .ok (200, payload))
    (serves : node.ServesBatch theirs ours state body payload) :
    ∃ members, calls.iterated = some members ∧ List.Forall₂ heap.IsPair members pairs ∧
    ∃ done : List Ask, done.length = pairs.length ∧
      List.Forall₂ (fun slot ask => Conveys slot.1 slot.2 ask) (asked.zip requestIds) done ∧
      callBatch ours (loads ours) heap frames url rpcIds validTimeout httpRequest calls =
        .ok (toldBatch url done (node.run state done).1) := by
  obtain ⟨rfl, sentIds, requests, done, parsed, read, conveys⟩ :=
    batchRequest_read reads paired asks ids sent
  obtain ⟨replies, ⟨arrived, replied, reordered⟩, each⟩ := serves requests done parsed read
  have same : requestIds.length = asked.length := by
    rw [sentIds, List.length_map, List.length_range]
  have size : done.length = pairs.length := by
    rw [← conveys.length_eq, List.length_zip, same, min_self, asks.length_eq]
  have doneIds : done.map Ask.requestId = requestIds := by
    have same' := forall₂_map_eq (conveys.imp fun _ _ here => here.1.symm)
    rw [← same', List.map_snd_zip (Nat.le_of_eq same)]
  have doneMethods : done.map Ask.method = asked.map Prod.fst := by
    have same' := forall₂_map_eq (conveys.imp fun _ _ here => here.2.1.symm)
    have firsts := congrArg (List.map Prod.fst) (List.map_fst_zip (Nat.le_of_eq same.symm))
    rw [List.map_map] at firsts
    exact same'.symm.trans firsts
  have runs := (node.run_length state done).symm
  have own : List.Forall₂ Correlated requestIds replies := by
    rw [← doneIds, ← List.map_fst_zip (Nat.le_of_eq runs), List.map_map, List.forall₂_map_left_iff]
    exact each.imp fun _ _ here => here.own
  obtain ⟨members, iterated, each'⟩ := batchPairs_eq_ok paired
  refine ⟨members, iterated, each', done, size, conveys, ?_⟩
  rw [callBatch_eq sent carried replied]
  rcases readBatch_cases ours url (asked.map Prod.fst) requestIds arrived with
    ⟨byId, count, correlates, entries⟩ | ⟨foreign, _⟩
  · rw [entries, batchEntries, ← doneMethods, ← doneIds]
    refine batchEntries_told ours url 0 runs (List.forall₂_iff_zip.mpr ⟨each.length_eq, ?_⟩)
    intro slot reply inside
    have replied' := (List.forall₂_iff_zip.mp each).2 inside
    have here : .object reply ∈ arrived :=
      reordered.mem_iff.mpr (List.mem_map_of_mem (List.of_mem_zip inside).2)
    exact ⟨(lookup_eq_some_iff correlates.2.1).mpr (correlates.mem_iff.mpr ⟨here, replied'.own⟩),
      replied'⟩
  · exact absurd ((attributed_own own distinct).perm reordered) foreign

/-- A node that counts what it is asked, from one on. -/
def counting : Node Nat := fun count _ _ => (.ok (.int count), count + 1)

/-- Its outcomes are listed in the members' order, its replies having come in the other. -/
theorem callBatch_served_swapped :
    callBatch cpython (loads cpython) twoCalls 50 (str "u") twoIds (.ok ())
      (fun _ => .ok (200, swappedReplies)) (.list [2, 4]) =
        .ok [.result (.int 1), .result (.int 2)] := by
  have answered : loads cpython swappedReplies =
      .ok (.array [.object (reply (str "b") (.int 2)), .object (reply (str "a") (.int 1))]) := by
    decide +kernel
  have received : loads nodeReader twoRequests = .ok (.array [
      .object [(str "jsonrpc", .string (str "2.0")), (str "id", .string (str "a")),
        (str "method", .string (str "getblockcount")), (str "params", .array [])],
      .object [(str "jsonrpc", .string (str "2.0")), (str "id", .string (str "b")),
        (str "method", .string (str "getbestblockhash")), (str "params", .array [])]]) := by
    decide +kernel
  have serves : counting.ServesBatch nodeReader cpython 1 twoRequests swappedReplies := by
    intro requests asks parsed read
    rw [received] at parsed
    cases parsed
    cases read
    refine ⟨[reply (str "a") (.int 1), reply (str "b") (.int 2)], ⟨_, answered, .swap _ _ _⟩, ?_⟩
    exact .cons (.result rfl rfl rfl rfl) (.cons (.result rfl rfl rfl rfl) .nil)
  have plain : Whole (str "a") ∧ Whole (str "b") ∧ Whole (str "getblockcount") ∧
      Whole (str "getbestblockhash") := by
    unfold Whole Utf8.IsScalar Utf8.Admits
    decide +kernel
  have count : Asks nodeReader twoCalls (0, 1) (str "getblockcount", .list []) :=
    ⟨rfl, plain.2.2.1, trivial, .list [], 1, rfl, rfl⟩
  have best : Asks nodeReader twoCalls (3, 1) (str "getbestblockhash", .list []) :=
    ⟨rfl, plain.2.2.2, trivial, .list [], 1, rfl, rfl⟩
  have ids : ∀ index, Whole (twoIds index) := by
    intro index
    cases index with
    | zero => exact plain.1
    | succ index => exact plain.2.1
  obtain ⟨_, _, _, done, _, conveys, returned⟩ := callBatch_served counting 1 nodeReader cpython twoCalls
    50 (str "u") twoIds (.ok ()) (fun _ => .ok (200, swappedReplies)) (.list [2, 4]) [(0, 1), (3, 1)]
    [(str "getblockcount", .list []), (str "getbestblockhash", .list [])] _ _ twoRequests
    swappedReplies nodeReader_reads rfl (.cons count (.cons best .nil)) ids twoCalls_sent
    (by decide +kernel) rfl serves
  rw [returned]
  obtain _ | ⟨first, _ | ⟨second, _ | _⟩⟩ := conveys
  rfl

end BitcoinCoreRpc
