import ModelGrid.Proofs.Edit.Order
import ModelGrid.Proofs.Store.Workspace

/-!
# Insertions that may be refused

A caller who goes on after a refusal holds the session that he had before it.  This module is about
such runs: every call is answered, and the session is passed on whether the call was accepted or
not.  `Session.insertAll` is the run that a refusal ends.

A run only appends to the insertions of its session.  The snapshot, against which offsets are
checked, stays what it was (`attemptAll_snapshot`), so a call is answered in the last session as in
the first one.

## Main definitions

* `Text.IsInside`: an offset between the ends of one character.
* `Session.Refuses`: the offsets that are past the end of the snapshot or inside a character.
* `Session.attempt`, `Session.attemptAll`: one call, and a run of calls.
* `Session.accepted`: the calls of a run that are not refused.

## Main results

* `Text.isBoundary_iff`: a text is cut wherever it reaches, except inside a character.
* `Session.answers_attemptAll`: which calls of a run fail, and what the run leaves.
-/

namespace ModelGrid

namespace Text

variable {cs : List Char} {offset : Nat}

/-- The UTF-8 form of a text has as many bytes as its characters need. -/
theorem size_toList (s : String) : size s.toList = s.utf8ByteSize := by
  rw [← String.ofList_toList (s := s), String.toList_ofList]
  generalize s.toList = cs
  induction cs with
  | nil => rfl
  | cons c cs ih => simp_all [String.ofList_cons]

/-- The offset is between the ends of a character: behind the first byte of its UTF-8 form and in
front of the end of the last one. -/
def IsInside (cs : List Char) (offset : Nat) : Prop :=
  ∃ before c after, cs = before ++ c :: after ∧
    size before < offset ∧ offset < size before + c.utf8Size

/-- **A text is cut wherever it reaches, except inside a character.** -/
theorem isBoundary_iff : IsBoundary cs offset ↔ offset ≤ size cs ∧ ¬ IsInside cs offset := by
  constructor
  · intro boundary
    refine ⟨Edit.le_size_of_isBoundary boundary, ?_⟩
    rintro ⟨before, c, after, rfl, behind, inside⟩
    rw [isBoundary_append (by omega)] at boundary
    exact not_isBoundary_inside (by omega) (by omega) boundary
  · rintro ⟨reaches, outside⟩
    induction cs generalizing offset with
    | nil =>
      obtain rfl : offset = 0 := by simpa using reaches
      rfl
    | cons c cs ih =>
      rcases Nat.eq_zero_or_pos offset with rfl | pos
      · rfl
      have behind : c.utf8Size ≤ offset := by
        by_contra inside
        exact outside ⟨[], c, cs, rfl, pos, by simpa using inside⟩
      rw [isBoundary_cons behind]
      refine ih (by simp at reaches; omega) ?_
      rintro ⟨before, d, after, rfl, low, high⟩
      exact outside ⟨c :: before, d, after, rfl, by simp; omega, by simp; omega⟩

end Text

namespace Edit.Session

variable (s : Session) (i : Insertion) (calls : List Insertion)

/-- The offset is past the end of the snapshot, or inside the UTF-8 form of one of its
characters. -/
def Refuses (offset : Nat) : Prop :=
  s.snapshot.utf8ByteSize < offset ∨ Text.IsInside s.snapshot.toList offset

/-- The session refuses what does not cut its snapshot. -/
theorem refuses_iff (offset : Nat) :
    s.Refuses offset ↔ ¬ Text.IsBoundary s.snapshot.toList offset := by
  rw [Text.isBoundary_iff, Refuses, Text.size_toList, not_and_or, Nat.not_le, not_not]

instance (offset : Nat) : Decidable (s.Refuses offset) :=
  decidable_of_iff' _ (s.refuses_iff offset)

/-- A call and its answer.  Where the call is refused, the session stays what it was. -/
def attempt : Except Fault Unit × Session :=
  match s.insert i.offset i.text i.side with
  | .ok longer => (.ok (), longer)
  | .error refusal => (.error (.invalidEdit refusal), s)

/-- The session after a run of calls. -/
def attemptAll : List Insertion → Session :=
  List.foldl (fun s i => (s.attempt i).2) s

/-- The calls that the session does not refuse. -/
def accepted : List Insertion :=
  calls.filter fun i => ¬ s.Refuses i.offset

/-- What a refused call is told. -/
def refusal : Fault :=
  .invalidEdit ⟨i.offset, s.path, s.snapshot.utf8ByteSize⟩

/-- Sessions are what they are about and what they insert. -/
theorem eq_of_fields {s s' : Session} (path : s.path = s'.path) (snapshot : s.snapshot = s'.snapshot)
    (insertions : s.insertions = s'.insertions) : s = s' := by
  cases s
  cases s'
  subst path snapshot insertions
  rfl

/-! ### One call -/

/-- A step of a run on the disk answers as the call does, and leaves the disk alone. -/
theorem insert_eq_attempt (d : Store.Disk) :
    (Store.Workspace.insert s i.offset i.text i.side).on d =
      ((s.attempt i).1.map fun _ => (s.attempt i).2, d) := by
  rw [Store.Workspace.insert, attempt]
  cases s.insert i.offset i.text i.side with
  | ok longer => rfl
  | error refusal => rfl

theorem attempt_of_refuses (refused : s.Refuses i.offset) :
    s.attempt i = (.error (s.refusal i), s) := by
  rw [attempt, insert, dif_neg ((s.refuses_iff _).mp refused), refusal, Text.size_toList]

theorem attempt_of_not_refuses (accepted : ¬ s.Refuses i.offset) :
    ∃ longer, s.insert i.offset i.text i.side = .ok longer ∧ s.attempt i = (.ok (), longer) ∧
      longer.path = s.path ∧ longer.snapshot = s.snapshot ∧
      longer.insertions = s.insertions ++ [i] := by
  have boundary := not_not.mp ((s.refuses_iff _).not.mp accepted)
  rw [attempt, insert, dif_pos boundary]
  exact ⟨_, rfl, rfl, rfl, rfl, rfl⟩

/-- The answer to a call. -/
theorem attempt_fst :
    (s.attempt i).1 = if s.Refuses i.offset then .error (s.refusal i) else .ok () := by
  split
  case isTrue refused => rw [attempt_of_refuses s i refused]
  case isFalse accepted =>
    obtain ⟨longer, -, answered, -⟩ := attempt_of_not_refuses s i accepted
    rw [answered]

/-! ### A run of calls -/

/-- A run keeps the path and the snapshot, and appends the insertions that they do not refuse. -/
theorem attemptAll_fields :
    (s.attemptAll calls).path = s.path ∧ (s.attemptAll calls).snapshot = s.snapshot ∧
      (s.attemptAll calls).insertions = s.insertions ++ s.accepted calls := by
  induction calls generalizing s with
  | nil => simp [attemptAll, accepted]
  | cons i rest ih =>
    have head : s.attemptAll (i :: rest) = (s.attempt i).2.attemptAll rest := rfl
    by_cases refused : s.Refuses i.offset
    · rw [head, attempt_of_refuses s i refused]
      simpa [accepted, refused] using ih s
    · obtain ⟨longer, -, answered, path, snapshot, insertions⟩ :=
        attempt_of_not_refuses s i refused
      obtain ⟨path', snapshot', insertions'⟩ := ih longer
      have refuses : longer.Refuses = s.Refuses := by
        funext offset
        rw [Refuses, snapshot, Refuses]
      rw [head, answered]
      refine ⟨path'.trans path, snapshot'.trans snapshot, ?_⟩
      simp [insertions', insertions, accepted, refuses, refused]

/-- A run that is not ended by a refusal is one whose calls are all accepted. -/
theorem attemptAll_of_insertAll {s last : Session} {calls : List Insertion}
    (accepted : s.insertAll calls = .ok last) : s.attemptAll calls = last := by
  induction calls generalizing s with
  | nil =>
    cases accepted
    rfl
  | cons i rest ih =>
    rw [insertAll] at accepted
    split at accepted
    · cases accepted
    case h_2 longer here =>
      have answered : s.attempt i = (.ok (), longer) := by rw [attempt, here]
      have head : s.attemptAll (i :: rest) = (s.attempt i).2.attemptAll rest := rfl
      rw [head, answered]
      exact ih accepted

/-- The calls of a run do not change what it refuses. -/
theorem refuses_attemptAll : (s.attemptAll calls).Refuses = s.Refuses := by
  funext offset
  rw [Refuses, (attemptAll_fields s calls).2.1, Refuses]

/-- **Refused calls leave no trace.**  Whatever calls were made before, a call fails exactly where
its offset is past the end of the snapshot or inside the UTF-8 form of one of its characters.  It is
told the offset, the path and the number of bytes, and the session is the one before it.  A run ends
with the session, and so with the text, that its accepted calls make, none of which is refused. -/
theorem answers_attemptAll :
    (∀ front i,
      ((s.attemptAll front).attempt i).1 =
          (if s.Refuses i.offset then .error (s.refusal i) else .ok ()) ∧
        (s.Refuses i.offset → ((s.attemptAll front).attempt i).2 = s.attemptAll front)) ∧
    s.insertAll (s.accepted calls) = .ok (s.attemptAll calls) ∧
    s.attemptAll (s.accepted calls) = s.attemptAll calls ∧
    (s.attemptAll calls).edited? = some (s.attemptAll calls).apply := by
  refine ⟨fun front i => ⟨?_, fun refused => ?_⟩, ?_⟩
  · obtain ⟨path, snapshot, -⟩ := attemptAll_fields s front
    have told : (s.attemptAll front).refusal i = s.refusal i := by
      rw [refusal, path, snapshot, refusal]
    simp only [attempt_fst, refuses_attemptAll, told]
  · rw [← refuses_attemptAll s front] at refused
    rw [attempt_of_refuses _ i refused]
  · have all_accepted : s.attemptAll (s.accepted calls) = s.attemptAll calls := by
      obtain ⟨path, snapshot, insertions⟩ := attemptAll_fields s calls
      obtain ⟨path', snapshot', insertions'⟩ := attemptAll_fields s (s.accepted calls)
      refine eq_of_fields (path'.trans path.symm) (snapshot'.trans snapshot.symm) ?_
      rw [insertions', insertions]
      simp [accepted]
    obtain ⟨last, run⟩ : ∃ last, s.insertAll (s.accepted calls) = .ok last := by
      refine insertAll_of_isBoundary fun i mem => ?_
      have kept := (List.mem_filter.mp mem).2
      rw [decide_eq_true_iff, refuses_iff, not_not] at kept
      exact kept
    refine ⟨?_, all_accepted, ?_⟩
    · rw [run, ← all_accepted, attemptAll_of_insertAll run]
    · rw [apply, edited?_eq_layout, Option.getD_some]

/-- Inside a character of two bytes, and as far behind it as a number of 64 bits goes. -/
theorem answers_attemptAll_accent :
    let s := start "p" "é"
    let calls := [⟨2, "!", .right⟩, ⟨1, "x", .left⟩, ⟨18446744073709551615, "y", .left⟩,
      ⟨0, "a", .left⟩]
    calls.map (fun i => (s.attempt i).1) =
        [.ok (), .error (.invalidEdit ⟨1, "p", 2⟩),
          .error (.invalidEdit ⟨18446744073709551615, "p", 2⟩), .ok ()] ∧
      s.attemptAll calls = s.attemptAll [⟨2, "!", .right⟩, ⟨0, "a", .left⟩] ∧
      (s.attemptAll calls).edited? = some "aé!" := by
  intro s calls
  obtain ⟨answered, -, same, edited⟩ := s.answers_attemptAll calls
  have answers : calls.map (fun i => (s.attempt i).1) =
      calls.map fun i => if s.Refuses i.offset then .error (s.refusal i) else .ok () :=
    List.map_congr_left fun i _ => (answered [] i).1
  refine ⟨answers.trans (by decide), ?_, edited.trans ?_⟩
  · rw [← same, show s.accepted calls = [⟨2, "!", .right⟩, ⟨0, "a", .left⟩] by decide]
  · decide

end Edit.Session

end ModelGrid
