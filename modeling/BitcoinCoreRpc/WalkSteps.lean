/-
This file says which calls of a stream are refused, where they are, before they consumed
anything but white space.

A walk may catch a refusal and go on, so where the refusal left the stream is part of what
the walk does. That is settled by the call and by the octet due, where what is still to
come is UTF-8: a call that only looks takes nothing, a container of another kind is refused
at its bracket, a number or a literal is consumed at once or not at all, and of a value no
octet of which may be kept none is consumed. A string or a container that is refused
further in, a member's name and a comma that is none are refused past octets they took.
-/

import BitcoinCoreRpc.StreamKeeps

namespace BitcoinCoreRpc

open JsonText Steps

/-! ### Calls that spare what is due -/

/-- The octet due past white space, where one is left. -/
def Stream.octetDue (stream : Stream) : Option Nat :=
  (dropBlank stream.unread).head?

/-- A call that, if it is refused with an octet due, is refused before it takes that octet. -/
def StreamCall.Spares (octet : Nat) : StreamCall → Prop
  | .peek | .end_ => True
  | .skip => octet ≠ 0x22 ∧ kindOf octet = none
  | .value limit => limit ≤ 0 ∨ octet ≠ 0x22 ∧ kindOf octet = none
  | .enter kind => octet ≠ kind.opener
  | .resume _ => False

instance StreamCall.decidableSpares (octet : Nat) :
    (call : StreamCall) → Decidable (call.Spares octet)
  | .peek | .end_ => inferInstanceAs (Decidable True)
  | .skip => inferInstanceAs (Decidable (octet ≠ 0x22 ∧ kindOf octet = none))
  | .value limit => inferInstanceAs (Decidable (limit ≤ 0 ∨ octet ≠ 0x22 ∧ kindOf octet = none))
  | .enter kind => inferInstanceAs (Decidable (octet ≠ kind.opener))
  | .resume _ => inferInstanceAs (Decidable False)

/-- White space alone was consumed, and no octet lost. -/
def Skims (document : Bytes) (stream after : Stream) : Prop :=
  ∃ pad : Blank, Stream.Passes stream pad.codes after ∧ after.Ready document

section Refused

variable {py : Interpreter} {where_ : Str} {document : Bytes} {stream between after : Stream} {e : Exc}

theorem Skims.here (ready : stream.Ready document) : Skims document stream stream :=
  ⟨.none, .refl ready.sane, ready⟩

theorem Skims.trans (first : Skims document stream between) (second : Skims document between after) :
    Skims document stream after := by
  obtain ⟨pad, passes, _⟩ := first
  obtain ⟨pad', passes', ready⟩ := second
  exact ⟨pad.append pad', passes.trans passes', ready⟩

/-! ### The octet due -/

theorem atEnd_skims {ended : Bool} (ready : stream.Ready document)
    (ran : atEnd where_ stream = (.ok ended, after)) : Skims document stream after := by
  obtain ⟨pad, passes, _⟩ := atEnd_eq_ok ready.sane ran
  exact ⟨pad, passes, (@atEnd_proper (fun _ => True) where_ document stream ready).ready ready ran⟩

/-- The octet found is the one due. -/
theorem nextOctet_due {octet : Nat} (ready : stream.Ready document)
    (ran : nextOctet where_ stream = (.ok octet, after)) :
    octet ∈ stream.octetDue ∧ Skims document stream after := by
  obtain ⟨pad, rest, passes, here, solid⟩ := nextOctet_eq_ok ready.sane ran
  have ready' := (@nextOctet_proper (fun _ => True) where_ document stream ready).ready ready ran
  refine ⟨?_, pad, passes, ready'⟩
  rw [Stream.octetDue, passes.unread, Stream.unread, here, List.cons_append,
    dropBlank_append pad (noBlank_cons solid)]
  rfl

/-- Where all there is to come is UTF-8, none is found only at the end of it. -/
theorem nextOctet_skims (ready : stream.Ready document) (fed : stream.Fed)
    (unkept : stream.kept = none) (ran : nextOctet where_ stream = (.error e, after)) :
    Skims document stream after := by
  obtain ⟨ended, between, ends⟩ := @atEnd_isOk where_ stream ready.sane fed (.of_none unkept)
  rw [nextOctet, seq_of_ok ends] at ran
  cases ended with
  | true =>
    cases ran
    exact atEnd_skims ready ends
  | false => cases ran

/-! ### Values refused where they begin -/

theorem unkept_of_none (unkept : stream.kept = none) : stream.unkept = stream := by
  obtain ⟨source, buffer, pos, offset, ended, utf8, kept, limit, soft, open_⟩ := stream
  cases unkept
  rfl

theorem advance_unkept {size : Nat} (ran : advance where_ size stream = (.error e, after)) :
    after.unkept = stream.unkept := by
  unfold advance at ran
  split at ran
  · cases ran
  · dsimp only at ran
    split_ifs at ran <;> cases ran
    rfl

/-- A number or a literal is refused before any of it is consumed, whatever is kept. -/
theorem scalar_skims (ready : stream.Ready document) (fed : stream.Fed)
    (ran : scalar py where_ stream = (.error e, after)) :
    ∃ ahead, Stream.Passes stream [] ahead ∧ ahead.Ready document ∧ after.unkept = ahead.unkept := by
  obtain ⟨found, ahead, ensures⟩ :=
    @ensureLoop_isOk where_ stream (maxStreamNumber + 1) (maxStreamNumber + 1) ready.sane fed
  refine ⟨ahead, (ensure_eq_ok ready.sane ensures).1,
    (@ensure_proper (fun _ => True) where_ document stream _ ready le_rfl).ready ready ensures, ?_⟩
  replace ensures : ensure where_ (maxStreamNumber + 1) stream = (.ok found, ahead) := ensures
  rw [scalar, seq_of_ok ensures, seq_read] at ran
  cases literal : matchLiteral ahead.here with
  | some found =>
    rw [literal] at ran
    exact advance_unkept ran
  | none =>
    rw [literal] at ran
    dsimp only at ran
    cases matched : matchNumber ahead.here with
    | none =>
      rw [matched] at ran
      cases ran
      rfl
    | some found =>
      rw [matched] at ran
      dsimp only at ran
      split_ifs at ran
      · cases ran
        rfl
      · rcases seq_eq_error ran with builds | ⟨_, _, builds, advances⟩
        · obtain ⟨_, rfl⟩ := Prod.mk.inj builds
          rfl
        · obtain ⟨_, rfl⟩ := Prod.mk.inj builds
          exact advance_unkept advances

/-- Nothing is consumed where nothing may be kept. -/
theorem advance_keeping_zero {octet : Nat} {rest : Bytes} (here : stream.here = octet :: rest) :
    ∃ e after, advance where_ 1 (stream.keeping 0 false) = (.error e, after) := by
  have long : (stream.keeping 0 false).keptLimit <
      ([] ++ (stream.keeping 0 false).here.take 1).length := by
    rw [show (stream.keeping 0 false).here = octet :: rest from here]
    exact Nat.one_pos
  exact ⟨_, _, (if_pos long).trans (if_neg Bool.false_ne_true)⟩

/-- Nor is a string or a container begun. -/
theorem skip_keeping_zero {octet : Nat} {rest : Bytes} (here : stream.here = octet :: rest)
    (solid : isBlank octet = false) (begins : ¬(octet ≠ 0x22 ∧ kindOf octet = none)) :
    ∃ e after, skip py where_ (stream.keeping 0 false) = (.error e, after) ∧
      after.unkept = (stream.keeping 0 false).unkept := by
  have looks : nextOctet where_ (stream.keeping 0 false) = (.ok octet, stream.keeping 0 false) :=
    nextOctet_here here solid
  obtain ⟨e, after, advances⟩ := @advance_keeping_zero where_ _ _ _ here
  refine ⟨e, after, ?_, advance_unkept advances⟩
  cases opens : kindOf octet with
  | some kind =>
    have heads : skipHead py where_ [] (stream.keeping 0 false) = (.error e, after) := by
      rw [skipHead, seq_of_ok looks, opens]
      exact (branch_of_not (by decide)).trans (seq_of_error advances)
    exact seq_of_error heads
  | none =>
    rw [skip_leaf looks opens]
    have quote : octet = 0x22 := by
      by_contra other
      exact begins ⟨other, opens⟩
    refine (branch_of quote).trans (seq_of_error ?_)
    rw [expect, seq_of_ok looks]
    exact (branch_of_not (not_not.mpr quote)).trans advances

/-- A number or a literal that was consumed while it was kept is answered. -/
theorem scalar_keeping_eq_ok {limit : Nat} (ready : stream.Ready document)
    (ran : scalar py where_ (stream.keeping limit false) = (.ok (), after)) :
    ∃ answer, keptValue py (after.kept.getD []) = .ok answer := by
  have ready' := (@scalar_proper (fun _ => True) py where_ document _
    (ready.keeping limit false)).ready (ready.keeping limit false) ran
  obtain ⟨tree, consumed, flat, streams⟩ := scalar_eq_ok (Stream.sane_keeping ready.sane) ran
  have text := Stream.kept_of_keeping consumed.toConsumes
  rw [if_pos (Stream.length_of_keeping consumed.toConsumes)] at text
  obtain ⟨code, more, begins, first⟩ := tree.text_eq_cons
  obtain ⟨chars, decoded⟩ := (ready.keeping limit false).decode ready' consumed.toConsumes
    (by rw [begins]; rintro _ ⟨⟩; exact first.ascii) tree.endsAscii
  rw [text]
  exact @keptValue_isOk py tree chars decoded (streams.mono fun _ found => found.1)
    (flat ▸ Nat.zero_le _)

/-- A value is refused before any of it is consumed where none of it may be, or where it is a number
or a literal. -/
theorem value_skims {limit : Int} (ready : stream.Ready document) (fed : stream.Fed)
    (unkept : stream.kept = none)
    (spares : ∀ octet ∈ stream.octetDue, (StreamCall.value limit).Spares octet)
    (ran : value py where_ limit stream = (.error e, after)) : Skims document stream after := by
  by_cases negative : limit < 0
  · rw [value, if_pos negative] at ran
    cases ran
    exact .here ready
  obtain ⟨limit, rfl⟩ := Int.eq_ofNat_of_zero_le (not_lt.mp negative)
  rcases looks : nextOctet where_ stream with ⟨e' | octet, between⟩
  · have failed : keep where_ limit false stream = (.error e', between) := seq_of_error looks
    rw [value, if_neg negative, Int.toNat_natCast, seq_of_error failed] at ran
    cases ran
    exact nextOctet_skims ready fed unkept looks
  obtain ⟨due, skims⟩ := nextOctet_due ready looks
  obtain ⟨pad, passes, ready'⟩ := id skims
  obtain ⟨_, rest, _, here, solid⟩ := nextOctet_eq_ok ready.sane looks
  have unkept' := passes.kept_none unkept
  by_cases flat : octet ≠ 0x22 ∧ kindOf octet = none
  · have looks' : nextOctet where_ (between.keeping limit false) =
        (.ok octet, between.keeping limit false) := nextOctet_here here solid
    have same : skip py where_ (between.keeping limit false) =
        scalar py where_ (between.keeping limit false) :=
      (skip_leaf looks' flat.2).trans (branch_of_not flat.1)
    have fed' := passes.fed fed
    rcases scalars : scalar py where_ (between.keeping limit false) with ⟨e' | ⟨⟩, later⟩
    · obtain ⟨ahead, reads, ready'', left⟩ := scalar_skims (ready'.keeping limit false)
        ⟨fed'.complete, fed'.accepts⟩ scalars
      cases (value_of_refused looks (same.trans scalars)).symm.trans ran
      exact skims.trans ⟨.none, left ▸ reads.unkeep unkept', left ▸ ready''.unkept⟩
    · obtain ⟨answer, built⟩ := scalar_keeping_eq_ok ready' scalars
      rw [value_of_kept looks (same.trans scalars), built] at ran
      cases ran
  · have zero : (limit : Int) ≤ 0 := (spares octet due).resolve_right flat
    obtain rfl : limit = 0 := by omega
    obtain ⟨e', later, skips, same⟩ := @skip_keeping_zero py where_ _ _ _ here solid flat
    have kept : Stream.Passes (between.keeping 0 false) [] (between.keeping 0 false) :=
      .refl (Stream.sane_keeping ready'.sane)
    cases (value_of_refused looks skips).symm.trans ran
    exact skims.trans ⟨.none, same ▸ kept.unkeep unkept', same ▸ (ready'.keeping 0 false).unkept⟩

theorem skip_skims (ready : stream.Ready document) (fed : stream.Fed) (unkept : stream.kept = none)
    (spares : ∀ octet ∈ stream.octetDue, StreamCall.skip.Spares octet)
    (ran : skip py where_ stream = (.error e, after)) : Skims document stream after := by
  rcases looks : nextOctet where_ stream with ⟨e' | octet, between⟩
  · have heads : skipHead py where_ [] stream = (.error e', between) := seq_of_error looks
    have failed : skip py where_ stream = (.error e', between) := seq_of_error heads
    cases failed.symm.trans ran
    exact nextOctet_skims ready fed unkept looks
  obtain ⟨due, pad, passes, ready'⟩ := nextOctet_due ready looks
  obtain ⟨notQuote, noKind⟩ := spares octet due
  rw [skip_leaf looks noKind] at ran
  obtain ⟨ahead, reads, ready'', same⟩ := scalar_skims ready' (passes.fed fed)
    ((branch_of_not notQuote).symm.trans ran)
  have left := (@skip_proper (fun _ => True) py where_ document _ ready').unkept
    (passes.kept_none unkept)
  rw [skip_leaf (nextOctet_again ready.sane looks) noKind, ran] at left
  rw [unkept_of_none left, unkept_of_none ((passes.trans reads).kept_none unkept)] at same
  subst same
  exact Skims.trans ⟨pad, passes, ready'⟩ ⟨.none, reads, ready''⟩

/-! ### Containers refused at their brackets -/

theorem enter_skims {kind : Kind} (ready : stream.Ready document) (fed : stream.Fed)
    (unkept : stream.kept = none) (other : ∀ octet ∈ stream.octetDue, octet ≠ kind.opener)
    (ran : enter py where_ kind stream = (.error e, after)) : Skims document stream after := by
  rcases looks : nextOctet where_ stream with ⟨e' | octet, between⟩
  · have expects : expect where_ kind.opener stream = (.error e', between) := seq_of_error looks
    have failed : enter py where_ kind stream = (.error e', between) := seq_of_error expects
    cases failed.symm.trans ran
    exact nextOctet_skims ready fed unkept looks
  obtain ⟨due, skims⟩ := nextOctet_due ready looks
  have expects : expect where_ kind.opener stream =
      (.error (misplaced where_ kind.opener between.position), between) := by
    rw [expect, seq_of_ok looks]
    exact branch_of (other octet due)
  have failed : enter py where_ kind stream = _ := seq_of_error expects
  cases failed.symm.trans ran
  exact skims

/-- A later resumption takes the octet due, whatever it is. -/
theorem resume_skims {kind : Kind} (ready : stream.Ready document) (fed : stream.Fed)
    (unkept : stream.kept = none) (nothing : ∀ octet, octet ∉ stream.octetDue)
    (ran : resume py where_ kind stream = (.error e, after)) : Skims document stream after := by
  rcases looks : nextOctet where_ stream with ⟨e' | octet, between⟩
  · have failed : resume py where_ kind stream = (.error e', between) := seq_of_error looks
    cases failed.symm.trans ran
    exact nextOctet_skims ready fed unkept looks
  · exact absurd (nextOctet_due ready looks).1 (nothing octet)

theorem end_skims (ready : stream.Ready document) (fed : stream.Fed) (unkept : stream.kept = none)
    (ran : end_ where_ stream = (.error e, after)) : Skims document stream after := by
  obtain ⟨ended, between, ends⟩ := @atEnd_isOk where_ stream ready.sane fed (.of_none unkept)
  rw [end_, seq_of_ok ends] at ran
  cases ended with
  | true => cases ran
  | false =>
    cases ran
    exact atEnd_skims ready ends

/-- A refused call that spares what is due consumed white space alone, where all there is to come
is UTF-8. -/
theorem perform_skims {call : StreamCall} (ready : stream.Ready document) (fed : stream.Fed)
    (unkept : stream.kept = none) (spares : ∀ octet ∈ stream.octetDue, call.Spares octet)
    (ran : call.perform py where_ stream = (.error e, after)) : Skims document stream after := by
  cases call with
  | peek =>
    rcases seq_eq_error ran with looks | ⟨_, _, _, done⟩
    · exact nextOctet_skims ready fed unkept looks
    · cases done
  | skip =>
    rcases seq_eq_error ran with skips | ⟨_, _, _, done⟩
    · exact skip_skims ready fed unkept spares skips
    · cases done
  | value limit =>
    rcases seq_eq_error ran with values | ⟨_, _, _, done⟩
    · exact value_skims ready fed unkept spares values
    · cases done
  | enter kind =>
    rcases seq_eq_error ran with enters | ⟨_, _, _, done⟩
    · exact enter_skims ready fed unkept spares enters
    · cases done
  | resume kind =>
    rcases seq_eq_error ran with resumes | ⟨_, _, _, done⟩
    · exact resume_skims ready fed unkept spares resumes
    · cases done
  | end_ =>
    rcases seq_eq_error ran with ends | ⟨_, _, _, done⟩
    · exact end_skims ready fed unkept ends
    · cases done

end Refused

end BitcoinCoreRpc
