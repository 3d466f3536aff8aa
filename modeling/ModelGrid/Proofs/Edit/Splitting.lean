import Mathlib.Algebra.BigOperators.Group.List.Basic
import Mathlib.Algebra.GroupWithZero.Nat
import ModelGrid.Proofs.Edit.Order

/-!
# A batch of insertions in two sessions

Insertions `bs` asked for against a snapshot can be made after insertions `as` have been applied,
if each is moved by the bytes that `as` put in front of it.  How far that is depends on its side:
behind the left texts of `as` at its own offset if it is on the left, behind all of them if it is
on the right.  The two sides of one offset then stand at two offsets of the new text, or at the
same one where `as` has nothing on the right.

What carries the induction over the snapshot is that `movedTo` keeps places in order
(`movedTo_lt_cursor`, `cursor_le_movedTo`): at the cursor the moved insertions still to be met are
exactly those of `bs` from the same position on.  It also needs that the snapshot can be cut at
each insertion of `as`.  An insertion inside a character would move the places behind it without
leaving a text.

## Main definitions

* `Session.movedTo`: where a place of the snapshot is after insertions have been applied.
* `Insertion.moved`: an insertion asked for after others have been applied.

## Main results

* `Session.layoutFrom_moved`: the layout of the moved insertions in the layout of the first ones.
* `Session.isBoundary_movedTo`: the new text can be cut at moved places.
* `Session.edited?_insertAll_moved`: a batch of insertions may be split over two sessions.
-/

namespace ModelGrid.Edit

open Insertion

namespace Session

/-- The number of bytes of the texts of insertions. -/
def textSize (is : List Insertion) : Nat :=
  (is.map fun i => Text.size i.text.toList).sum

/-- Where a place of the snapshot is after insertions `as` have been applied: behind their texts at
offsets below and, at the offset itself, behind those on the left for a place on the left and behind
all of them for a place on the right. -/
def movedTo (as : List Insertion) (offset : Nat) (side : Side) : Nat :=
  offset + textSize (as.filter fun i => i.offset < offset) +
    textSize (as.filter fun i => i.offset == offset && (i.side == .left || side == .right))

end Session

/-- The insertion as it is asked for after insertions `as` have been applied. -/
def Insertion.moved (as : List Insertion) (j : Insertion) : Insertion :=
  { j with offset := Session.movedTo as j.offset j.side }

namespace Session

/-! ### Texts in front of a place -/

variable {as bs is : List Insertion} {offset position : Nat} {side : Side}

/-- The texts of insertions, one after another. -/
def textOf (is : List Insertion) : List Char :=
  is.flatMap fun i => i.text.toList

theorem size_textOf (is : List Insertion) : Text.size (textOf is) = textSize is := by
  induction is with
  | nil => rfl
  | cons i rest ih =>
    rw [textOf, List.flatMap_cons, Text.size_append, ← textOf, ih]
    rfl

/-- Moving insertions keeps their texts. -/
theorem textOf_moved (as is : List Insertion) : textOf (is.map (moved as)) = textOf is := by
  rw [textOf, List.flatMap_map]
  rfl

theorem textsAt_eq_textOf (is : List Insertion) (position : Nat) :
    textsAt is position =
      textOf (is.filter (isAt position .left)) ++ textOf (is.filter (isAt position .right)) :=
  textsAt_eq is position

/-- Insertions that fall under one of two conditions, and none under both. -/
theorem textSize_filter_or {f g h : Insertion → Bool} (either : ∀ i ∈ is, h i = (f i || g i))
    (apart : ∀ i ∈ is, ¬ (f i = true ∧ g i = true)) :
    textSize (is.filter h) = textSize (is.filter f) + textSize (is.filter g) := by
  induction is with
  | nil => rfl
  | cons i rest ih =>
    obtain ⟨here, later⟩ := List.forall_mem_cons.mp either
    obtain ⟨here', later'⟩ := List.forall_mem_cons.mp apart
    have rest_eq := ih later later'
    simp only [textSize] at rest_eq
    simp only [textSize, List.filter_cons, here]
    cases hf : f i <;> cases hg : g i <;> simp_all <;> omega

/-- The position of the cursor in the new text when it is at `position` in the snapshot, in front
of what is inserted there. -/
def cursor (as : List Insertion) (position : Nat) : Nat :=
  position + textSize (as.filter fun i => i.offset < position)

/-- A place on the left is behind the left texts at its offset. -/
theorem movedTo_left (as : List Insertion) (offset : Nat) :
    movedTo as offset .left =
      cursor as offset + Text.size (textOf (as.filter (isAt offset .left))) := by
  rw [size_textOf, movedTo, cursor]
  refine congrArg (_ + textSize ·) (List.filter_congr fun i _ => ?_)
  rw [isAt, show (Side.left == Side.right) = false from rfl, Bool.or_false]

/-- A place on the right is behind the right texts at its offset as well. -/
theorem movedTo_right (as : List Insertion) (offset : Nat) :
    movedTo as offset .right =
      movedTo as offset .left + Text.size (textOf (as.filter (isAt offset .right))) := by
  have both : textSize (as.filter fun i => i.offset == offset && (i.side == .left || Side.right == .right)) =
      textSize (as.filter (isAt offset .left)) + textSize (as.filter (isAt offset .right)) := by
    refine textSize_filter_or (fun i _ => ?_) fun i _ => ?_
    · cases side : i.side <;> simp [isAt, side]
    · rintro ⟨left, right⟩
      simp only [isAt, Bool.and_eq_true, beq_iff_eq] at left right
      rw [left.2] at right
      exact absurd right.2 (by decide)
  rw [movedTo_left, size_textOf, size_textOf, movedTo, both, cursor, Nat.add_assoc _ _ (textSize _)]

/-- Without insertions between two positions the cursor passes what is inserted at the first. -/
theorem cursor_add {width : Nat} (pos : 0 < width)
    (between : ∀ i ∈ as, ¬ (position < i.offset ∧ i.offset < position + width)) :
    cursor as (position + width) = movedTo as position .right + width := by
  have split : textSize (as.filter fun i => i.offset < position + width) =
      textSize (as.filter fun i => i.offset < position) +
        textSize (as.filter fun i => i.offset == position &&
          (i.side == .left || Side.right == .right)) := by
    refine textSize_filter_or (fun i mem => ?_) fun i _ => ?_
    · have outside := between i mem
      rw [Bool.eq_iff_iff]
      simp
      omega
    · simp
      omega
  rw [cursor, movedTo, split]
  omega

@[simp] theorem cursor_zero (as : List Insertion) : cursor as 0 = 0 := by
  simp [cursor, textSize]

/-! ### Places keep their order -/

theorem cursor_le_movedTo (as : List Insertion) (offset : Nat) (side : Side) :
    cursor as offset ≤ movedTo as offset side :=
  Nat.le_add_right _ _

theorem movedTo_le_right (as : List Insertion) (offset : Nat) (side : Side) :
    movedTo as offset side ≤ movedTo as offset .right := by
  cases side with
  | left => rw [movedTo_right]; exact Nat.le_add_right _ _
  | right => exact Nat.le_refl _

theorem cursor_mono (as : List Insertion) {p q : Nat} (le : p ≤ q) : cursor as p ≤ cursor as q := by
  have split : textSize (as.filter fun i => i.offset < q) =
      textSize (as.filter fun i => i.offset < p) +
        textSize (as.filter fun i => decide (p ≤ i.offset) && decide (i.offset < q)) := by
    refine textSize_filter_or (fun i _ => ?_) fun i _ => ?_
    · rw [Bool.eq_iff_iff]
      simp
      omega
    · simp
      omega
  rw [cursor, cursor, split]
  omega

/-- A place is moved in front of whatever is inserted at a later position. -/
theorem movedTo_lt_cursor (as : List Insertion) {p q : Nat} (lt : p < q) (side : Side) :
    movedTo as p side < cursor as q := by
  have next : cursor as (p + 1) = movedTo as p .right + 1 :=
    cursor_add Nat.one_pos fun i _ => by omega
  have here := movedTo_le_right as p side
  have later := cursor_mono as (show p + 1 ≤ q from lt)
  omega

/-- A place of the snapshot is moved in front of the cursor at a position, or behind all that is
inserted there, unless it is at that position. -/
theorem movedTo_cases (as : List Insertion) (offset position : Nat) (side : Side) :
    movedTo as offset side < cursor as position ∨ offset = position ∨
      movedTo as position .right < movedTo as offset side := by
  rcases Nat.lt_trichotomy offset position with before | same | behind
  · exact .inl (movedTo_lt_cursor as before side)
  · exact .inr (.inl same)
  · have passed := movedTo_lt_cursor as behind .right
    exact .inr (.inr (Nat.lt_of_lt_of_le passed (cursor_le_movedTo as offset side)))

/-- Places of one side are moved to different offsets. -/
theorem movedTo_inj {p q : Nat} (same : movedTo as p side = movedTo as q side) : p = q := by
  have lower := cursor_le_movedTo as q side
  have upper := movedTo_le_right as q side
  rcases movedTo_cases as p q side with before | eq | behind
  · omega
  · exact eq
  · omega

/-- The insertions moved to a moved place are those of that place. -/
theorem filter_isAt_moved (as bs : List Insertion) (offset : Nat) (side : Side) :
    (bs.map (moved as)).filter (isAt (movedTo as offset side) side) =
      (bs.filter (isAt offset side)).map (moved as) := by
  rw [List.filter_map]
  refine congrArg _ (List.filter_congr fun j _ => ?_)
  rw [Bool.eq_iff_iff]
  simp only [Function.comp, isAt, moved, Bool.and_eq_true, beq_iff_eq]
  constructor
  · rintro ⟨same, rfl⟩
    exact ⟨movedTo_inj same, rfl⟩
  · rintro ⟨rfl, rfl⟩
    exact ⟨rfl, rfl⟩

/-! ### The layout of moved insertions -/

/-- The layout behind what is inserted at the position itself. -/
def layoutBehind (is : List Insertion) (position : Nat) : List Char → List Char
  | [] => []
  | c :: cs => c :: layoutFrom is (position + c.utf8Size) cs

theorem layoutFrom_eq (is : List Insertion) (position : Nat) (text : List Char) :
    layoutFrom is position text = textsAt is position ++ layoutBehind is position text := by
  cases text with
  | nil => exact (List.append_nil _).symm
  | cons c cs => rfl

/-- What follows a position does not depend on what is inserted up to it. -/
theorem layoutBehind_congr {js : List Insertion} {text : List Char}
    (same : ∀ p, position < p → textsAt is p = textsAt js p) :
    layoutBehind is position text = layoutBehind js position text := by
  cases text with
  | nil => rfl
  | cons c cs =>
    have pos := c.utf8Size_pos
    exact congrArg (c :: ·) (layoutFrom_congr fun p le => same p (by omega))

/-- The insertions that are not on the left of a position. -/
def notLeft (position : Nat) (is : List Insertion) : List Insertion :=
  is.filter fun i => !i.isAt position .left

theorem filter_left_notLeft (is : List Insertion) (position : Nat) :
    (notLeft position is).filter (isAt position .left) = [] := by
  rw [notLeft, List.filter_filter]
  exact List.filter_eq_nil_iff.mpr fun i _ => by simp

theorem filter_notLeft {p : Nat} (is : List Insertion) (ne : p ≠ position ∨ side = .right) :
    (notLeft position is).filter (isAt p side) = is.filter (isAt p side) := by
  rw [notLeft, List.filter_filter]
  refine List.filter_congr fun i _ => ?_
  rw [Bool.eq_iff_iff]
  simp only [isAt, Bool.and_eq_true, Bool.not_eq_true', Bool.and_eq_false_imp, beq_iff_eq]
  refine ⟨And.left, fun here => ⟨here, fun at_position => ?_⟩⟩
  rcases ne with ne | rfl
  · exact absurd (here.1.symm.trans at_position) ne
  · simp [here.2]

/-- The left texts at the cursor may be written in front of the layout of the other insertions. -/
theorem layoutFrom_left (is : List Insertion) (position : Nat) (text : List Char) :
    layoutFrom is position text =
      textOf (is.filter (isAt position .left)) ++
        layoutFrom (notLeft position is) position text := by
  have here : textsAt is position = textOf (is.filter (isAt position .left)) ++
      textsAt (notLeft position is) position := by
    rw [textsAt_eq_textOf, textsAt_eq_textOf, filter_left_notLeft, filter_notLeft is (.inr rfl)]
    rfl
  have later : layoutBehind is position text = layoutBehind (notLeft position is) position text :=
    layoutBehind_congr fun p lt => textsAt_congr fun side =>
      (filter_notLeft is (.inl (Nat.ne_of_gt lt))).symm
  rw [layoutFrom_eq, layoutFrom_eq, here, later, List.append_assoc]

/-- No insertion is moved between the cursor and the left place of its position. -/
theorem clear_moved (as bs : List Insertion) (position : Nat) :
    ∀ i ∈ bs.map (moved as),
      ¬ (cursor as position ≤ i.offset ∧ i.offset < movedTo as position .left) := by
  intro i mem
  obtain ⟨j, -, rfl⟩ := List.mem_map.mp mem
  show ¬ (_ ≤ movedTo as j.offset j.side ∧ movedTo as j.offset j.side < _)
  have left_le := movedTo_le_right as position .left
  rcases movedTo_cases as j.offset position j.side with before | same | behind
  · omega
  · rw [same]
    cases j.side <;> omega
  · omega

/-- Between the left and the right place of a position only insertions on the left of it are
moved. -/
theorem clear_notLeft (as bs : List Insertion) (position : Nat) :
    ∀ i ∈ notLeft (movedTo as position .left) (bs.map (moved as)),
      ¬ (movedTo as position .left ≤ i.offset ∧ i.offset < movedTo as position .right) := by
  intro i mem
  obtain ⟨mem, not_left⟩ := List.mem_filter.mp mem
  obtain ⟨j, -, rfl⟩ := List.mem_map.mp mem
  rintro ⟨ge, lt⟩
  change movedTo as position .left ≤ movedTo as j.offset j.side at ge
  change movedTo as j.offset j.side < movedTo as position .right at lt
  have cursor_le := cursor_le_movedTo as position .left
  rcases movedTo_cases as j.offset position j.side with before | same | behind
  · omega
  · cases side : j.side with
    | left => simp [isAt, moved, same, side] at not_left
    | right => rw [same, side] at lt; omega
  · omega

/-- At the right place of a position no insertion is on the left, unless it is the left place as
well. -/
theorem filter_left_right (as bs : List Insertion) (position : Nat) :
    (notLeft (movedTo as position .left) (bs.map (moved as))).filter
      (isAt (movedTo as position .right) .left) = [] := by
  refine List.filter_eq_nil_iff.mpr fun i mem here => ?_
  obtain ⟨mem, not_left⟩ := List.mem_filter.mp mem
  obtain ⟨j, -, rfl⟩ := List.mem_map.mp mem
  obtain ⟨offset, side⟩ : movedTo as j.offset j.side = movedTo as position .right ∧
      j.side = .left := by simpa [isAt, moved] using here
  have cursor_le := cursor_le_movedTo as position .right
  rcases movedTo_cases as j.offset position j.side with before | same | behind
  · omega
  · simp [isAt, moved, same, side] at not_left
  · omega

/-- **One position.**  Around the texts that stand there the moved insertions put theirs as they
stand next to each other in one session: left before right, and on each side the first
insertions before the later ones. -/
theorem layoutFrom_moved_texts (as bs : List Insertion) (position : Nat) (rest : List Char) :
    layoutFrom (bs.map (moved as)) (cursor as position) (textsAt as position ++ rest) =
      textsAt (as ++ bs) position ++
        layoutBehind (bs.map (moved as)) (movedTo as position .right) rest := by
  have left := movedTo_left as position
  have right := movedTo_right as position
  set l := movedTo as position .left
  set r := movedTo as position .right
  set js := bs.map (moved as) with js_eq
  have js_left : textOf (js.filter (isAt l .left)) = textOf (bs.filter (isAt position .left)) := by
    rw [js_eq, filter_isAt_moved, textOf_moved]
  have js_right : textsAt (notLeft l js) r = textOf (bs.filter (isAt position .right)) := by
    rw [textsAt_eq_textOf, filter_left_right, filter_notLeft js (.inr rfl), js_eq, filter_isAt_moved,
      textOf_moved]
    rfl
  have behind : layoutBehind (notLeft l js) r rest = layoutBehind js r rest := by
    refine layoutBehind_congr fun p lt => textsAt_congr fun side => filter_notLeft js (.inl ?_)
    omega
  calc layoutFrom js (cursor as position) (textsAt as position ++ rest)
      = textOf (as.filter (isAt position .left)) ++
          layoutFrom js l (textOf (as.filter (isAt position .right)) ++ rest) := by
        rw [textsAt_eq_textOf, List.append_assoc, left,
          layoutFrom_append (left ▸ clear_moved as bs position)]
    _ = textOf (as.filter (isAt position .left)) ++ (textOf (bs.filter (isAt position .left)) ++
          (textOf (as.filter (isAt position .right)) ++ layoutFrom (notLeft l js) r rest)) := by
        rw [layoutFrom_left js, js_left, right,
          layoutFrom_append (right ▸ clear_notLeft as bs position)]
    _ = textsAt (as ++ bs) position ++ layoutBehind js r rest := by
        rw [layoutFrom_eq, js_right, behind, textsAt_eq_textOf (as ++ bs)]
        simp [textOf]

/-- The text can be cut where insertions are that the cursor has not passed, as it is behind the
first character. -/
private theorem boundary_behind {c : Char} {cs : List Char}
    (boundary : ∀ i ∈ as, position ≤ i.offset → Text.IsBoundary (c :: cs) (i.offset - position)) :
    ∀ i ∈ as, position + c.utf8Size ≤ i.offset →
      Text.IsBoundary cs (i.offset - (position + c.utf8Size)) := by
  intro i mem le
  have cut := boundary i mem (by omega)
  rwa [Text.isBoundary_cons (by omega), Nat.sub_sub] at cut

/-- Past a character the cursor moves by the texts in front of it and its bytes. -/
private theorem cursor_behind {c : Char} {cs : List Char}
    (boundary : ∀ i ∈ as, position ≤ i.offset → Text.IsBoundary (c :: cs) (i.offset - position)) :
    cursor as (position + c.utf8Size) = movedTo as position .right + c.utf8Size := by
  refine cursor_add c.utf8Size_pos fun i mem inside => ?_
  have cut := boundary i mem (by omega)
  exact Text.not_isBoundary_inside (by omega) (by omega) cut

/-- **Layouts compose.**  The moved insertions, laid out in the layout of the first ones, give the
layout of all of them. -/
theorem layoutFrom_moved {text : List Char}
    (boundary : ∀ i ∈ as, position ≤ i.offset → Text.IsBoundary text (i.offset - position)) :
    layoutFrom (bs.map (moved as)) (cursor as position) (layoutFrom as position text) =
      layoutFrom (as ++ bs) position text := by
  induction text generalizing position with
  | nil =>
    have here := layoutFrom_moved_texts as bs position []
    rw [List.append_nil] at here
    rw [layoutFrom, here, layoutFrom]
    exact List.append_nil _
  | cons c cs ih =>
    rw [layoutFrom, layoutFrom_moved_texts, layoutBehind, ← cursor_behind boundary,
      ih (boundary_behind boundary), layoutFrom]

/-- The new text can be cut on either side of the right texts at the cursor's position. -/
theorem isBoundary_movedTo_here (as : List Insertion) (position : Nat) (text : List Char)
    (side : Side) :
    Text.IsBoundary (layoutFrom as position text)
      (movedTo as position side - cursor as position) := by
  have left := movedTo_left as position
  have right := movedTo_right as position
  rw [layoutFrom_eq, textsAt_eq_textOf]
  cases side with
  | left =>
    rw [left, Nat.add_sub_cancel_left, List.append_assoc]
    exact Option.isSome_iff_exists.mpr ⟨_, Text.splitAt?_size_append _ _⟩
  | right =>
    rw [right, left, Nat.add_assoc, Nat.add_sub_cancel_left, ← Text.size_append]
    exact Option.isSome_iff_exists.mpr ⟨_, Text.splitAt?_size_append _ _⟩

/-- **Moved places are cuts.**  Where the snapshot can be cut, the new text can be cut at the place
moved. -/
theorem isBoundary_movedTo {text : List Char}
    (boundary : ∀ i ∈ as, position ≤ i.offset → Text.IsBoundary text (i.offset - position))
    (le : position ≤ offset) (cut : Text.IsBoundary text (offset - position)) (side : Side) :
    Text.IsBoundary (layoutFrom as position text)
      (movedTo as offset side - cursor as position) := by
  induction text generalizing position with
  | nil =>
    have in_text := le_size_of_isBoundary cut
    rw [Text.size_nil] at in_text
    obtain rfl : position = offset := by omega
    exact isBoundary_movedTo_here as position [] side
  | cons c cs ih =>
    rcases Nat.eq_or_lt_of_le le with rfl | lt
    · exact isBoundary_movedTo_here as position (c :: cs) side
    · have behind : position + c.utf8Size ≤ offset := by
        by_contra inside
        exact Text.not_isBoundary_inside (by omega) (by omega) cut
      rw [Text.isBoundary_cons (by omega), Nat.sub_sub] at cut
      have later := ih (boundary_behind boundary) behind cut
      have next := cursor_behind boundary
      have left := movedTo_left as position
      have right := movedTo_right as position
      have passed := cursor_le_movedTo as offset side
      have mono := cursor_mono as behind
      have size : Text.size (textsAt as position ++ [c]) =
          cursor as (position + c.utf8Size) - cursor as position := by
        rw [textsAt_eq_textOf, Text.size_append, Text.size_append, next, right, left,
          Text.size_cons, Text.size_nil]
        omega
      rw [layoutFrom, ← List.singleton_append, ← List.append_assoc,
        Text.isBoundary_append (by omega), size, Nat.sub_sub, Nat.add_sub_cancel' (by omega)]
      exact later

/-- What was accepted cuts the snapshot. -/
theorem isBoundary_of_insertAll {path snapshot : String} {last : Session}
    (accepted : (start path snapshot).insertAll is = .ok last) :
    ∀ i ∈ is, Text.IsBoundary snapshot.toList i.offset := by
  obtain ⟨same, made⟩ := insertAll_eq_ok accepted
  intro i mem
  have cut := last.boundary i (by rw [made]; exact List.mem_append_right _ mem)
  rwa [same] at cut

/-- The text of a session is the layout of what was accepted. -/
theorem edited?_of_insertAll {path snapshot : String} {last : Session}
    (accepted : (start path snapshot).insertAll is = .ok last) :
    last.edited? = some (String.ofList (layoutFrom is 0 snapshot.toList)) := by
  obtain ⟨same, made⟩ := insertAll_eq_ok accepted
  rw [edited?_eq_layout, layout, same, made]
  rfl

/-- **A batch in two sessions.**  Let two lists of insertions be accepted on one snapshot.  Then
the first list makes a text on which the second one, each insertion moved by what the first list put
in front of it, is accepted, and it makes there what one session makes of both lists. -/
theorem edited?_insertAll_moved {path snapshot : String} {a b : Session}
    (accepted : (start path snapshot).insertAll as = .ok a)
    (accepted' : (start path snapshot).insertAll bs = .ok b) :
    ∃ between whole later edited,
      a.edited? = some between ∧
      (start path snapshot).insertAll (as ++ bs) = .ok whole ∧
      (start path between).insertAll (bs.map (moved as)) = .ok later ∧
      later.edited? = some edited ∧ whole.edited? = some edited := by
  have cuts (i : Insertion) (mem : i ∈ as) : Text.IsBoundary snapshot.toList i.offset :=
    isBoundary_of_insertAll accepted i mem
  have cuts' (j : Insertion) (mem : j ∈ bs) : Text.IsBoundary snapshot.toList j.offset :=
    isBoundary_of_insertAll accepted' j mem
  have between := edited?_of_insertAll accepted
  obtain ⟨whole, whole_ok⟩ :
      ∃ whole, (start path snapshot).insertAll (as ++ bs) = .ok whole :=
    insertAll_of_isBoundary fun i mem => (List.mem_append.mp mem).elim (cuts i) (cuts' i)
  have moved_cuts (j : Insertion) (mem : j ∈ bs.map (moved as)) :
      Text.IsBoundary (layoutFrom as 0 snapshot.toList) j.offset := by
    obtain ⟨i, asked, rfl⟩ := List.mem_map.mp mem
    have cut : Text.IsBoundary (layoutFrom as 0 snapshot.toList)
        (movedTo as i.offset i.side - cursor as 0) :=
      isBoundary_movedTo (fun i mem _ => cuts i mem) (Nat.zero_le _) (cuts' i asked) i.side
    rwa [cursor_zero] at cut
  obtain ⟨later, later_ok⟩ : ∃ later,
      (start path (String.ofList (layoutFrom as 0 snapshot.toList))).insertAll
        (bs.map (moved as)) = .ok later := by
    refine insertAll_of_isBoundary fun j mem => ?_
    rw [start, String.toList_ofList]
    exact moved_cuts j mem
  have composed : layoutFrom (bs.map (moved as)) (cursor as 0) (layoutFrom as 0 snapshot.toList) =
      layoutFrom (as ++ bs) 0 snapshot.toList :=
    layoutFrom_moved fun i mem _ => cuts i mem
  refine ⟨_, whole, later, _, between, whole_ok, later_ok, edited?_of_insertAll later_ok, ?_⟩
  rw [edited?_of_insertAll whole_ok, String.toList_ofList, ← composed, cursor_zero]

/-- Both sides of the offset behind a character of two bytes, and an empty text. -/
theorem edited?_insertAll_moved_shared :
    ∃ a b between whole later edited,
      (start "p" "aéb").insertAll [⟨3, "R", .right⟩, ⟨3, "L", .left⟩, ⟨0, "", .right⟩] = .ok a ∧
      (start "p" "aéb").insertAll
        [⟨3, "r", .right⟩, ⟨3, "l", .left⟩, ⟨3, "!", .left⟩, ⟨4, ".", .left⟩] = .ok b ∧
      a.edited? = some between ∧ between = "aéLRb" ∧
      (start "p" "aéb").insertAll ([⟨3, "R", .right⟩, ⟨3, "L", .left⟩, ⟨0, "", .right⟩] ++
        [⟨3, "r", .right⟩, ⟨3, "l", .left⟩, ⟨3, "!", .left⟩, ⟨4, ".", .left⟩]) = .ok whole ∧
      (start "p" between).insertAll
        [⟨5, "r", .right⟩, ⟨4, "l", .left⟩, ⟨4, "!", .left⟩, ⟨6, ".", .left⟩] = .ok later ∧
      later.edited? = some edited ∧ whole.edited? = some edited ∧ edited = "aéLl!Rrb." := by
  have accepted : ∃ a, (start "p" "aéb").insertAll
      [⟨3, "R", .right⟩, ⟨3, "L", .left⟩, ⟨0, "", .right⟩] = .ok a := ⟨_, rfl⟩
  have accepted' : ∃ b, (start "p" "aéb").insertAll
      [⟨3, "r", .right⟩, ⟨3, "l", .left⟩, ⟨3, "!", .left⟩, ⟨4, ".", .left⟩] = .ok b := ⟨_, rfl⟩
  obtain ⟨a, accepted⟩ := accepted
  obtain ⟨b, accepted'⟩ := accepted'
  obtain ⟨between, whole, later, edited, made, whole_ok, later_ok, made_later, made_whole⟩ :=
    edited?_insertAll_moved accepted accepted'
  refine ⟨a, b, between, whole, later, edited, accepted, accepted', made, ?_, whole_ok, later_ok,
    made_later, made_whole, ?_⟩
  · have reads := (edited?_of_insertAll accepted).symm.trans made
    exact (Option.some.inj reads).symm.trans (by decide)
  · have reads := (edited?_of_insertAll whole_ok).symm.trans made_whole
    exact (Option.some.inj reads).symm.trans (by decide)

end Session

end ModelGrid.Edit
