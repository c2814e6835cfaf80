/-
This file models how a cookie file is opened and read, system call by system call, while
others do what they like to the files between any two of them, and any call may fail.

A path leads to another file from one call to the next, a descriptor does not: it is of
the file that was opened, and a file that is no regular one does not become one. So it is
the descriptor that `cookie_auth` judges, and what is proved is that it reads a regular
file or none, and closes what it opened once, however the calls go.
-/

import BitcoinCoreRpc.Call
import BitcoinCoreRpc.Handles
import BitcoinCoreRpc.Steps

namespace BitcoinCoreRpc

open Steps Handles

/-! ### The system calls -/

/-- The `OSError` a system call raises. -/
inductive OsError
  /-- `FileNotFoundError` -/
  | notFound
  | other (message : Str)

/-- A file, whatever leads to it. -/
structure Inode where
  /-- `stat.S_ISREG` -/
  regular : Bool
  octets : Bytes

/-- The files there are, and where each path leads. -/
structure Files where
  resolve : Str → Option Nat
  inode : Nat → Inode

/-- What may happen at a system call, by its index: others have been at the files, and it fails. -/
structure Kernel where
  rival : Nat → Files → Files
  fails : Nat → Option OsError
  keeps : ∀ index files inode, ((rival index files).inode inode).regular = (files.inode inode).regular

/-- A descriptor, with the file it was opened on. -/
structure Descriptor where
  number : Nat
  inode : Nat
deriving DecidableEq

/-- What is done with a descriptor that is open. -/
inductive FileUse
  | stat
  | read (size : Nat)

/-- The process, with what it did with its descriptors. -/
structure Os where
  tick : Nat
  files : Files
  opened : Nat
  deeds : List (Deed Descriptor FileUse)

def Os.did (deed : Deed Descriptor FileUse) (os : Os) : Os :=
  { os with deeds := os.deeds ++ [deed] }

namespace Kernel

variable (kernel : Kernel)

/-- A system call is entered. -/
def entered : Step OsError Os Unit := fun os =>
  (match kernel.fails os.tick with
    | some e => .error e
    | none => .ok (),
    { os with files := kernel.rival os.tick os.files, tick := os.tick + 1 })

/-- `os.open(path, _COOKIE_OPEN_FLAGS)` -/
def osOpen (path : Str) : Step OsError Os Descriptor := do
  kernel.entered
  let os ← read
  match os.files.resolve path with
  | none => fail .notFound
  | some inode => do
    let fd : Descriptor := ⟨os.opened, inode⟩
    change fun os => { os.did (.acquire fd) with opened := os.opened + 1 }
    return fd

/-- `stat.S_ISREG(os.fstat(fd).st_mode)` -/
def osRegular (fd : Descriptor) : Step OsError Os Bool := do
  change (Os.did (.use fd .stat))
  kernel.entered
  return ((← read).files.inode fd.inode).regular

/-- `file.read(size)` -/
def fileRead (fd : Descriptor) (size : Nat) : Step OsError Os Bytes := do
  change (Os.did (.use fd (.read size)))
  kernel.entered
  return ((← read).files.inode fd.inode).octets.take size

/-- `os.close(fd)`, which closes it whether or not it raises. -/
def osClose (fd : Descriptor) : Step OsError Os Unit := do
  change (Os.did (.release fd))
  kernel.entered

/-! ### The reading of a cookie -/

/-- The body of `with os.fdopen(fd, "rb") as file:`. A close that raises has the last word. -/
def readClosing (fd : Descriptor) : Step OsError Os Bytes := do
  let raw ← attempt (kernel.fileRead fd (maxCookieSize + 1))
  kernel.osClose fd
  lift raw

/-- The `try` of `cookie_auth`: nothing where the file is no regular one. -/
def openRead (path : Str) : Step OsError Os (Option Bytes) := do
  let fd ← kernel.osOpen path
  match ← attempt (kernel.osRegular fd) with
  | .error e => do
    kernel.osClose fd
    fail e
  | .ok false => do
    kernel.osClose fd
    return none
  | .ok true => do
    let raw ← kernel.readClosing fd
    return some raw

/-- What opening and reading a cookie file comes to, of a path that `_encodable` passes. -/
def cookieFile (path : Str) (os : Os) : CookieFile × Os :=
  match kernel.openRead path os with
  | (.error .notFound, os) => (.absent, os)
  | (.error (.other message), os) => (.failed message, os)
  | (.ok none, os) => (.irregular, os)
  | (.ok (some raw), os) => (.regular raw, os)

/-- One reading after another, each at a call of its own. -/
def cookieFiles : List Str → Os → List CookieFile × Os
  | [], os => ([], os)
  | path :: rest, os =>
    let (file, os) := kernel.cookieFile path os
    let (files, os) := cookieFiles rest os
    (file :: files, os)

end Kernel

/-! ### What each system call does -/

section Calls

variable {kernel : Kernel} {os after : Os} {path : Str} {fd : Descriptor}

/-- From one state to another a record was made, and no file changed its kind. -/
structure Passed (os : Os) (record : List (Deed Descriptor FileUse)) (after : Os) : Prop where
  deeds : after.deeds = os.deeds ++ record
  opened : os.opened ≤ after.opened
  kinds : ∀ inode, (after.files.inode inode).regular = (os.files.inode inode).regular

theorem Passed.trans {between : Os} {first second : List (Deed Descriptor FileUse)}
    (early : Passed os first between) (late : Passed between second after) :
    Passed os (first ++ second) after where
  deeds := by rw [late.deeds, early.deeds, List.append_assoc]
  opened := early.opened.trans late.opened
  kinds inode := (late.kinds inode).trans (early.kinds inode)

theorem entered_passed {outcome : Except OsError Unit} (ran : kernel.entered os = (outcome, after)) :
    Passed os [] after ∧ after.opened = os.opened := by
  cases ran
  exact ⟨⟨(List.append_nil _).symm, le_rfl, kernel.keeps _ _⟩, rfl⟩

theorem osOpen_passed {outcome : Except OsError Descriptor}
    (ran : kernel.osOpen path os = (outcome, after)) :
    (∃ e, outcome = .error e ∧ Passed os [] after) ∨
      ∃ fd, outcome = .ok fd ∧ Passed os [.acquire fd] after ∧ fd.number = os.opened ∧
        os.opened < after.opened := by
  rcases enters : kernel.entered os with ⟨e | ⟨⟩, between⟩
  · rw [Kernel.osOpen, seq_of_error enters] at ran
    cases ran
    exact .inl ⟨e, rfl, (entered_passed enters).1⟩
  · rw [Kernel.osOpen, seq_of_ok enters, seq_read] at ran
    obtain ⟨passed, same⟩ := entered_passed enters
    cases found : between.files.resolve path with
    | none =>
      rw [found] at ran
      cases ran
      exact .inl ⟨.notFound, rfl, passed⟩
    | some inode =>
      rw [found] at ran
      cases ran
      have deeds : between.deeds = os.deeds := by rw [passed.deeds, List.append_nil]
      refine .inr ⟨_, rfl, ⟨?_, passed.opened.trans (Nat.le_succ _), passed.kinds⟩, same, ?_⟩
      · show between.deeds ++ _ = _
        rw [deeds]
      · show _ < between.opened + 1
        omega

/-- A call on a descriptor is recorded, whether or not it raises. -/
theorem did_passed {deed : Deed Descriptor FileUse} {outcome : Except OsError Unit}
    (enters : kernel.entered (os.did deed) = (outcome, after)) : Passed os [deed] after := by
  obtain ⟨passed, _⟩ := entered_passed enters
  exact ⟨by rw [passed.deeds, List.append_nil]; rfl, passed.opened, passed.kinds⟩

theorem osClose_passed {outcome : Except OsError Unit}
    (ran : kernel.osClose fd os = (outcome, after)) : Passed os [.release fd] after :=
  did_passed ran

theorem osRegular_passed {outcome : Except OsError Bool}
    (ran : kernel.osRegular fd os = (outcome, after)) : Passed os [.use fd .stat] after ∧
      ∀ regular, outcome = .ok regular → (os.files.inode fd.inode).regular = regular := by
  have marks : (change (Os.did (.use fd .stat)) : Step OsError Os Unit) os =
      (.ok (), os.did (.use fd .stat)) := rfl
  rw [Kernel.osRegular, seq_of_ok marks] at ran
  rcases enters : kernel.entered (os.did (.use fd .stat)) with ⟨e | ⟨⟩, between⟩
  · rw [seq_of_error enters] at ran
    cases ran
    exact ⟨did_passed enters, nofun⟩
  · rw [seq_of_ok enters] at ran
    cases ran
    have passed := did_passed enters
    refine ⟨passed, ?_⟩
    rintro _ ⟨⟩
    exact (passed.kinds fd.inode).symm

theorem fileRead_passed {size : Nat} {outcome : Except OsError Bytes}
    (ran : kernel.fileRead fd size os = (outcome, after)) :
    Passed os [.use fd (.read size)] after ∧ ∀ raw, outcome = .ok raw → raw.length ≤ size := by
  have marks : (change (Os.did (.use fd (.read size))) : Step OsError Os Unit) os =
      (.ok (), os.did (.use fd (.read size))) := rfl
  rw [Kernel.fileRead, seq_of_ok marks] at ran
  rcases enters : kernel.entered (os.did (.use fd (.read size))) with ⟨e | ⟨⟩, between⟩
  · rw [seq_of_error enters] at ran
    cases ran
    exact ⟨did_passed enters, nofun⟩
  · rw [seq_of_ok enters] at ran
    cases ran
    refine ⟨did_passed enters, ?_⟩
    rintro _ ⟨⟩
    exact List.length_take_le _ _

theorem readClosing_passed {outcome : Except OsError Bytes}
    (ran : kernel.readClosing fd os = (outcome, after)) :
    Passed os [.use fd (.read (maxCookieSize + 1)), .release fd] after ∧
      ∀ raw, outcome = .ok raw → raw.length ≤ maxCookieSize + 1 := by
  rcases reads : kernel.fileRead fd (maxCookieSize + 1) os with ⟨raw, between⟩
  obtain ⟨passed, short⟩ := fileRead_passed reads
  have attempts : attempt (kernel.fileRead fd (maxCookieSize + 1)) os = (.ok raw, between) := by
    rw [attempt, reads]
  rw [Kernel.readClosing, seq_of_ok attempts] at ran
  rcases closes : kernel.osClose fd between with ⟨e | ⟨⟩, closed⟩
  · rw [seq_of_error closes] at ran
    cases ran
    exact ⟨passed.trans (osClose_passed closes), nofun⟩
  · rw [seq_of_ok closes] at ran
    cases ran
    exact ⟨passed.trans (osClose_passed closes), short⟩

/-- How a reading goes, with what it came to and the record of it: nothing was opened, or what was
opened was judged, read if it was a regular file, and closed. -/
inductive Goes (os : Os) : Except OsError (Option Bytes) → List (Deed Descriptor FileUse) → Prop
  | unopened (e : OsError) : Goes os (.error e) []
  | unread {fd : Descriptor} {outcome : Except OsError (Option Bytes)} (number : fd.number = os.opened)
    (nothing : ∀ raw, outcome ≠ .ok (some raw))
    (irregular : outcome = .ok none → (os.files.inode fd.inode).regular = false) :
    Goes os outcome [.acquire fd, .use fd .stat, .release fd]
  | read {fd : Descriptor} {outcome : Except OsError (Option Bytes)} (number : fd.number = os.opened)
    (regular : (os.files.inode fd.inode).regular = true) (judged : outcome ≠ .ok none)
    (short : ∀ raw, outcome = .ok (some raw) → raw.length ≤ maxCookieSize + 1) :
    Goes os outcome [.acquire fd, .use fd .stat, .use fd (.read (maxCookieSize + 1)), .release fd]

/-- Every reading goes in one of these ways. -/
theorem openRead_goes {outcome : Except OsError (Option Bytes)}
    (ran : kernel.openRead path os = (outcome, after)) :
    ∃ record, Passed os record after ∧ Goes os outcome record := by
  rcases opens : kernel.osOpen path os with ⟨opening, opened⟩
  rcases osOpen_passed opens with ⟨e, rfl, passed⟩ | ⟨fd, rfl, passed, number, _⟩
  · rw [Kernel.openRead, seq_of_error opens] at ran
    cases ran
    exact ⟨_, passed, .unopened e⟩
  rw [Kernel.openRead, seq_of_ok opens] at ran
  rcases judges : kernel.osRegular fd opened with ⟨judged, between⟩
  obtain ⟨looked, told⟩ := osRegular_passed judges
  have attempts : attempt (kernel.osRegular fd) opened = (.ok judged, between) := by
    rw [attempt, judges]
  rw [seq_of_ok attempts] at ran
  have kind (regular : Bool) (same : judged = .ok regular) :
      (os.files.inode fd.inode).regular = regular :=
    (passed.kinds fd.inode).symm.trans (told regular same)
  rcases judged with e | regular
  · dsimp only at ran
    rcases closes : kernel.osClose fd between with ⟨e' | ⟨⟩, closed⟩
    · rw [seq_of_error closes] at ran
      cases ran
      exact ⟨_, (passed.trans looked).trans (osClose_passed closes), .unread number nofun nofun⟩
    · rw [seq_of_ok closes] at ran
      cases ran
      exact ⟨_, (passed.trans looked).trans (osClose_passed closes), .unread number nofun nofun⟩
  cases regular with
  | false =>
    dsimp only at ran
    have irregular := kind false rfl
    rcases closes : kernel.osClose fd between with ⟨e' | ⟨⟩, closed⟩
    · rw [seq_of_error closes] at ran
      cases ran
      exact ⟨_, (passed.trans looked).trans (osClose_passed closes), .unread number nofun nofun⟩
    · rw [seq_of_ok closes] at ran
      cases ran
      exact ⟨_, (passed.trans looked).trans (osClose_passed closes),
        .unread number nofun fun _ => irregular⟩
  | true =>
    dsimp only at ran
    have regular := kind true rfl
    rcases reads : kernel.readClosing fd between with ⟨e' | raw, closed⟩
    · rw [seq_of_error reads] at ran
      cases ran
      exact ⟨_, (passed.trans looked).trans (readClosing_passed reads).1,
        .read number regular nofun nofun⟩
    · rw [seq_of_ok reads] at ran
      cases ran
      refine ⟨_, (passed.trans looked).trans (readClosing_passed reads).1,
        .read number regular nofun ?_⟩
      rintro _ ⟨⟩
      exact (readClosing_passed reads).2 raw rfl

/-! ### Readings one after another -/

/-- What is read is a regular file's, and no more of it than a cookie file may weigh, and one octet. -/
def ReadsRegular (files : Files) (record : List (Deed Descriptor FileUse)) : Prop :=
  ∀ fd size, .use fd (.read size) ∈ record →
    size = maxCookieSize + 1 ∧ (files.inode fd.inode).regular = true

theorem Goes.readsRegular {outcome : Except OsError (Option Bytes)}
    {record : List (Deed Descriptor FileUse)} (goes : Goes os outcome record) :
    ReadsRegular os.files record := by
  intro fd size member
  cases goes with
  | unopened e => cases member
  | unread number nothing irregular => simp at member
  | read number regular judged short =>
    simp only [List.mem_cons, List.not_mem_nil, or_false, reduceCtorEq, Deed.use.injEq, false_or,
      and_false, FileUse.read.injEq] at member
    obtain ⟨rfl, rfl⟩ := member
    exact ⟨rfl, regular⟩

/-- A reading closes what it opened once, whatever else is held. -/
theorem Goes.settled {outcome : Except OsError (Option Bytes)} {held : List Descriptor}
    {record : List (Deed Descriptor FileUse)} (older : ∀ fd ∈ held, fd.number < os.opened)
    (goes : Goes os outcome record) : Settled held record := by
  have fresh {fd : Descriptor} (number : fd.number = os.opened) : fd ∉ held :=
    fun inside => (older fd inside).ne number
  cases goes with
  | unopened e => rfl
  | @unread fd _ number nothing irregular =>
    have inner : Settled (fd :: held) [.use fd FileUse.stat] := by simp [Settled]
    exact inner.bracket (fresh number)
  | @read fd _ number regular judged short =>
    have inner : Settled (fd :: held) [.use fd FileUse.stat, .use fd (.read (maxCookieSize + 1))] := by
      simp [Settled]
    exact inner.bracket (fresh number)

/-- What a reading comes to is what the system calls of it came to. -/
theorem cookieFile_goes {file : CookieFile} (ran : kernel.cookieFile path os = (file, after)) :
    ∃ outcome record, Passed os record after ∧ Goes os outcome record ∧
      ∀ raw, file = .regular raw → outcome = .ok (some raw) := by
  rcases opens : kernel.openRead path os with ⟨outcome, last⟩
  obtain ⟨record, passed, goes⟩ := openRead_goes opens
  rw [Kernel.cookieFile, opens] at ran
  refine ⟨outcome, record, ?_, goes, ?_⟩ <;>
    rcases outcome with (⟨⟩ | message) | (⟨⟩ | raw) <;> cases ran <;> first | exact passed | rintro _ ⟨⟩
  rfl

theorem ReadsRegular.append {first second : List (Deed Descriptor FileUse)}
    (early : ReadsRegular os.files first) (passed : Passed os first after)
    (late : ReadsRegular after.files second) : ReadsRegular os.files (first ++ second) := by
  intro fd size member
  rcases List.mem_append.mp member with before | behind
  · exact early fd size before
  · obtain ⟨same, regular⟩ := late fd size behind
    exact ⟨same, (passed.kinds fd.inode).symm.trans regular⟩

/-- Over any run of readings, with others at the files between any two system calls and any call
failing: every descriptor that is opened is closed exactly once and none is used after, whatever else
the process holds; nothing is read but of a regular file; and no cookie is longer than one may be and
one octet. -/
theorem cookieFiles_sealed (kernel : Kernel) (paths : List Str) (os : Os) (held : List Descriptor)
    (older : ∀ fd ∈ held, fd.number < os.opened) :
    ∃ record, Passed os record (kernel.cookieFiles paths os).2 ∧ Settled held record ∧
      ReadsRegular os.files record ∧ (kernel.cookieFiles paths os).1.length = paths.length ∧
      ∀ raw, .regular raw ∈ (kernel.cookieFiles paths os).1 → raw.length ≤ maxCookieSize + 1 := by
  induction paths generalizing os with
  | nil =>
    exact ⟨[], ⟨(List.append_nil _).symm, le_rfl, fun _ => rfl⟩, rfl, nofun, rfl, nofun⟩
  | cons path paths inductionHypothesis =>
    rcases first : kernel.cookieFile path os with ⟨file, between⟩
    obtain ⟨outcome, record, passed, goes, told⟩ := cookieFile_goes first
    obtain ⟨record', passed', settled, regular, length, short⟩ :=
      inductionHypothesis between fun fd inside => (older fd inside).trans_le passed.opened
    have files : kernel.cookieFiles (path :: paths) os =
        (file :: (kernel.cookieFiles paths between).1, (kernel.cookieFiles paths between).2) := by
      rw [Kernel.cookieFiles, first]
    rw [files]
    refine ⟨record ++ record', passed.trans passed', (goes.settled older).append settled,
      goes.readsRegular.append passed regular, congrArg Nat.succ length, fun raw member => ?_⟩
    rcases List.mem_cons.mp member with same | later
    · have whole := told raw same.symm
      cases goes with
      | unopened e => cases whole
      | unread number nothing irregular => exact absurd whole (nothing raw)
      | read number regular judged short => exact short raw whole
    · exact short raw later

end Calls

/-! ### A path that is swapped -/

theorem swapped_keeps (index : Nat) (files : Files) (inode : Nat) :
    ((if index = 0 then files else { files with resolve := fun _ => some 1 }).inode inode).regular =
      (files.inode inode).regular := by
  split_ifs <;> rfl

/-- The path leads to another file once it was opened. -/
def swapping : Kernel where
  rival index files := if index = 0 then files else { files with resolve := fun _ => some 1 }
  fails _ := none
  keeps := swapped_keeps

/-- A cookie at a path, and a file that is no regular one. -/
def swapFiles : Files where
  resolve _ := some 0
  inode number := if number = 0 then ⟨true, str "a:b"⟩ else ⟨false, []⟩

/-- The cookie that was opened is read, and what the path leads to then is not. -/
theorem cookieFiles_sealed_swapped :
    (swapping.cookieFiles [str "/c", str "/c"] ⟨0, swapFiles, 1, []⟩).1 =
        [.regular (str "a:b"), .irregular] ∧
      Settled [⟨0, 5⟩] (swapping.cookieFiles [str "/c", str "/c"] ⟨0, swapFiles, 1, []⟩).2.deeds := by
  obtain ⟨record, passed, settled, _⟩ := cookieFiles_sealed swapping [str "/c", str "/c"]
    ⟨0, swapFiles, 1, []⟩ [⟨0, 5⟩] (by decide)
  refine ⟨rfl, ?_⟩
  rw [passed.deeds]
  exact settled

end BitcoinCoreRpc
