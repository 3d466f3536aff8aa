import ModelGrid.Edit.Session
import Mathlib.Data.List.Basic

/-!
# The layout of an edited text

`Session.edited?` sorts the insertions and walks over them with a cursor; `Session.layout` says what
stands at each position.  This module proves that the walk never fails and that its text is the
layout, down to the bytes.

The induction is over the sorted insertions, not over the text.  What carries it is that the cursor
never passes an insertion still to come (`Sorted` with `∀ i ∈ is, position ≤ i.offset`), so that the
layout behind the cursor loses nothing when the first insertion is taken off.

## Main definitions

* `Text.bytes`: the UTF-8 form of a list of characters.
* `Session.insertAll`: a run of accepted insertions.
* `Session.bytesAt`: what stands at a byte position of the edited text.

## Main results

* `Session.sorted_filter`: sorting keeps the order of the insertions at one place.
* `Session.weave?_eq_layoutFrom`: the walk over sorted insertions makes their layout.
* `Session.edited?_insertAll`: the text after any run of accepted insertions.
-/

namespace ModelGrid

namespace Text

/-- The UTF-8 form of the characters. -/
def bytes (cs : List Char) : List UInt8 :=
  cs.flatMap String.utf8EncodeChar

@[simp] theorem bytes_nil : bytes [] = [] := rfl

@[simp] theorem bytes_cons (c : Char) (cs : List Char) :
    bytes (c :: cs) = String.utf8EncodeChar c ++ bytes cs := rfl

@[simp] theorem bytes_append (xs ys : List Char) : bytes (xs ++ ys) = bytes xs ++ bytes ys := by
  simp [bytes]

@[simp] theorem length_bytes (cs : List Char) : (bytes cs).length = size cs := by
  induction cs with
  | nil => rfl
  | cons c cs ih => simp [ih]

/-- Between the two ends of a character the text cannot be cut. -/
theorem not_isBoundary_inside {c : Char} {cs : List Char} {offset : Nat} (pos : 0 < offset)
    (inside : offset < c.utf8Size) : ¬ IsBoundary (c :: cs) offset := by
  obtain ⟨n, rfl⟩ : ∃ n, offset = n + 1 := ⟨offset - 1, by omega⟩
  have large : ¬ c.utf8Size ≤ n + 1 := by omega
  simp [IsBoundary, splitAt?, large]

/-- Behind a character the text is cut where its rest is. -/
theorem isBoundary_cons {c : Char} {cs : List Char} {offset : Nat} (behind : c.utf8Size ≤ offset) :
    IsBoundary (c :: cs) offset ↔ IsBoundary cs (offset - c.utf8Size) := by
  have pos := c.utf8Size_pos
  obtain ⟨n, rfl⟩ : ∃ n, offset = n + 1 := ⟨offset - 1, by omega⟩
  simp [IsBoundary, splitAt?, behind]

/-- A cut of the whole text behind a first part is a cut of the second part. -/
theorem isBoundary_append {xs ys : List Char} {offset : Nat} (behind : size xs ≤ offset) :
    IsBoundary (xs ++ ys) offset ↔ IsBoundary ys (offset - size xs) := by
  induction xs generalizing offset with
  | nil => simp
  | cons c cs ih =>
    simp only [size_cons] at behind
    rw [List.cons_append, isBoundary_cons (by omega), ih (by omega), size_cons, Nat.sub_sub]

end Text

namespace Edit

namespace Insertion

theorem notAfter_iff (a b : Insertion) :
    a.notAfter b = true ↔
      a.offset < b.offset ∨ a.offset = b.offset ∧ (a.side = .left ∨ b.side = .right) := by
  simp [notAfter]

theorem notAfter_total (a b : Insertion) : a.notAfter b = true ∨ b.notAfter a = true := by
  rw [notAfter_iff, notAfter_iff]
  rcases Nat.lt_trichotomy a.offset b.offset with lt | eq | gt
  · exact .inl (.inl lt)
  · cases a.side <;> cases b.side <;> simp [eq]
  · exact .inr (.inl gt)

theorem notAfter_trans {a b c : Insertion} (ab : a.notAfter b = true) (bc : b.notAfter c = true) :
    a.notAfter c = true := by
  rw [notAfter_iff] at *
  have sides : a.side = .left ∨ b.side = .right → b.side = .left ∨ c.side = .right →
      a.side = .left ∨ c.side = .right := by
    cases a.side <;> cases b.side <;> cases c.side <;> simp
  rcases ab with lt | ⟨eq, hab⟩
  · exact .inl (by omega)
  · rcases bc with lt' | ⟨eq', hbc⟩
    · exact .inl (by omega)
    · exact .inr ⟨by omega, sides hab hbc⟩

/-- Whether the insertion is at the offset and on the side. -/
def isAt (offset : Nat) (side : Side) (i : Insertion) : Bool :=
  i.offset == offset && i.side == side

/-- Two insertions at one place stand in either order. -/
theorem notAfter_of_isAt {offset : Nat} {side : Side} {a b : Insertion}
    (ha : a.isAt offset side = true) (hb : b.isAt offset side = true) : a.notAfter b = true := by
  simp only [isAt, Bool.and_eq_true, beq_iff_eq] at ha hb
  rw [notAfter_iff]
  cases side <;> simp [ha, hb]

end Insertion

open Insertion

namespace Session

/-! ### Sorting -/

/-- No insertion stands behind a later one. -/
def Sorted (is : List Insertion) : Prop :=
  is.Pairwise fun a b => a.notAfter b = true

theorem mem_place {i j : Insertion} {is : List Insertion} :
    j ∈ place i is ↔ j = i ∨ j ∈ is := by
  induction is with
  | nil => simp [place]
  | cons k rest ih =>
    rw [place]
    split
    · simp only [List.mem_cons, ih]
      exact or_left_comm
    · exact List.mem_cons

theorem sorted_place {i : Insertion} {is : List Insertion} (h : Sorted is) :
    Sorted (place i is) := by
  induction is with
  | nil => simp [place, Sorted]
  | cons k rest ih =>
    obtain ⟨first, tail⟩ := List.pairwise_cons.1 h
    rw [place]
    split
    case isTrue before =>
      refine List.pairwise_cons.2 ⟨fun j hj => ?_, ih tail⟩
      rcases mem_place.1 hj with rfl | hj
      · exact before
      · exact first j hj
    case isFalse behind =>
      have ik : i.notAfter k = true := (notAfter_total k i).resolve_left behind
      refine List.pairwise_cons.2 ⟨fun j hj => ?_, h⟩
      rcases List.mem_cons.1 hj with rfl | hj
      · exact ik
      · exact notAfter_trans ik (first j hj)

/-- Among sorted insertions the new one comes behind those at its place. -/
theorem filter_place {i : Insertion} {is : List Insertion} (h : Sorted is) (offset : Nat)
    (side : Side) :
    (place i is).filter (isAt offset side) = is.filter (isAt offset side) ++
      [i].filter (isAt offset side) := by
  induction is with
  | nil => simp [place]
  | cons k rest ih =>
    obtain ⟨first, tail⟩ := List.pairwise_cons.1 h
    rw [place]
    split
    case isTrue before =>
      rw [List.filter_cons, List.filter_cons, ih tail]
      split <;> simp
    case isFalse behind =>
      by_cases here : i.isAt offset side = true
      · -- `i` stands strictly in front of `k`, so nothing from `k` on is at its place.
        have none : ∀ j ∈ k :: rest, ¬ j.isAt offset side = true := by
          intro j hj at'
          have ji : j.notAfter i = true := notAfter_of_isAt at' here
          rcases List.mem_cons.1 hj with rfl | hj
          · exact behind ji
          · exact behind (notAfter_trans (first j hj) ji)
        rw [List.filter_cons_of_pos here, List.filter_eq_nil_iff.2 none]
        simp [here]
      · rw [List.filter_cons_of_neg here]
        simp [here]

private theorem foldl_place (is done : List Insertion) (h : Sorted done) :
    Sorted (is.foldl (fun done i => place i done) done) ∧
      ∀ offset side,
        (is.foldl (fun done i => place i done) done).filter (isAt offset side) =
          done.filter (isAt offset side) ++ is.filter (isAt offset side) := by
  induction is generalizing done with
  | nil => simp [h]
  | cons i rest ih =>
    obtain ⟨sorted', filter'⟩ := ih (place i done) (sorted_place h)
    refine ⟨sorted', fun offset side => ?_⟩
    rw [List.foldl_cons, filter', filter_place h, List.append_assoc, ← List.filter_append]
    rfl

theorem sorted_sorted (is : List Insertion) : Sorted (sorted is) :=
  (foldl_place is [] List.Pairwise.nil).1

/-- **Sorting is stable.**  The insertions at one place keep the order in which they were made. -/
theorem sorted_filter (is : List Insertion) (offset : Nat) (side : Side) :
    (sorted is).filter (isAt offset side) = is.filter (isAt offset side) := by
  simpa [sorted] using (foldl_place is [] List.Pairwise.nil).2 offset side

theorem mem_sorted {i : Insertion} {is : List Insertion} : i ∈ sorted is ↔ i ∈ is := by
  have here : i.isAt i.offset i.side = true := by simp [isAt]
  have members := congrArg (i ∈ ·) (sorted_filter is i.offset i.side)
  simpa [here] using members

/-! ### What stands at a position -/

theorem textsAt_eq (is : List Insertion) (position : Nat) :
    textsAt is position =
      (is.filter (isAt position .left)).flatMap (fun i => i.text.toList) ++
        (is.filter (isAt position .right)).flatMap (fun i => i.text.toList) := by
  simp only [textsAt, List.flatMap_append]
  rfl

/-- The texts at a position depend only on the insertions at either side of it. -/
theorem textsAt_congr {is js : List Insertion} {position : Nat}
    (same : ∀ side, is.filter (isAt position side) = js.filter (isAt position side)) :
    textsAt is position = textsAt js position := by
  rw [textsAt_eq, textsAt_eq, same, same]

theorem textsAt_sorted (is : List Insertion) (position : Nat) :
    textsAt (sorted is) position = textsAt is position :=
  textsAt_congr fun side => sorted_filter is position side

/-- Where nothing is inserted there is no text. -/
theorem textsAt_eq_nil {is : List Insertion} {position : Nat}
    (elsewhere : ∀ i ∈ is, i.offset ≠ position) : textsAt is position = [] := by
  have none (side : Side) : is.filter (isAt position side) = [] := by
    refine List.filter_eq_nil_iff.2 fun i hi => ?_
    simp [isAt, elsewhere i hi]
  rw [textsAt_eq, none, none]
  rfl

/-- An insertion elsewhere adds nothing. -/
theorem textsAt_cons_of_ne {i : Insertion} {is : List Insertion} {position : Nat}
    (ne : i.offset ≠ position) : textsAt (i :: is) position = textsAt is position := by
  refine textsAt_congr fun side => ?_
  rw [List.filter_cons_of_neg (by simp [isAt, ne])]

/-- Of sorted insertions the first one comes first at its position. -/
theorem textsAt_cons_self {i : Insertion} {is : List Insertion} (h : Sorted (i :: is)) :
    textsAt (i :: is) i.offset = i.text.toList ++ textsAt is i.offset := by
  obtain ⟨first, -⟩ := List.pairwise_cons.1 h
  rw [textsAt_eq, textsAt_eq]
  cases side : i.side with
  | left => simp [isAt, side]
  | right =>
    -- Whatever follows `i` at its position is on the right as well.
    have noLeft : is.filter (isAt i.offset .left) = [] := by
      refine List.filter_eq_nil_iff.2 fun j hj at' => ?_
      have behind := (notAfter_iff i j).1 (first j hj)
      simp only [isAt, Bool.and_eq_true, beq_iff_eq] at at'
      simp [side, at'] at behind
    have here : i.isAt i.offset .right = true := by simp [isAt, side]
    have notLeft : ¬ i.isAt i.offset .left = true := by simp [isAt, side]
    rw [List.filter_cons_of_neg notLeft, List.filter_cons_of_pos here, noLeft]
    simp

/-! ### The walk -/

theorem layoutFrom_congr {is js : List Insertion} {text : List Char} {position : Nat}
    (same : ∀ p, position ≤ p → textsAt is p = textsAt js p) :
    layoutFrom is position text = layoutFrom js position text := by
  induction text generalizing position with
  | nil => exact same position (Nat.le_refl _)
  | cons c cs ih =>
    rw [layoutFrom, layoutFrom, same position (Nat.le_refl _),
      ih fun p hp => same p (by omega)]

@[simp] theorem layoutFrom_nil (position : Nat) (text : List Char) :
    layoutFrom [] position text = text := by
  induction text generalizing position with
  | nil => rfl
  | cons c cs ih => rw [layoutFrom, ih]; rfl

/-- The layout passes a part of the text into which nothing is inserted. -/
theorem layoutFrom_append {is : List Insertion} {before after : List Char} {position : Nat}
    (clear : ∀ i ∈ is, ¬ (position ≤ i.offset ∧ i.offset < position + Text.size before)) :
    layoutFrom is position (before ++ after) =
      before ++ layoutFrom is (position + Text.size before) after := by
  induction before generalizing position with
  | nil => rfl
  | cons c cs ih =>
    have pos := c.utf8Size_pos
    simp only [Text.size_cons] at clear
    have here : textsAt is position = [] := by
      refine textsAt_eq_nil fun i hi => ?_
      have := clear i hi
      omega
    rw [List.cons_append, layoutFrom, here, ih fun i hi => by have := clear i hi; omega,
      Text.size_cons, Nat.add_assoc]
    rfl

/-- The layout begins with what is inserted at its position. -/
theorem exists_layoutFrom_eq (is : List Insertion) (position : Nat) (text : List Char) :
    ∃ later, layoutFrom is position text = textsAt is position ++ later := by
  cases text with
  | nil => exact ⟨[], (List.append_nil _).symm⟩
  | cons c cs => exact ⟨_, rfl⟩

/-- Where nothing else is inserted, the layout keeps the text on both sides of a position. -/
theorem exists_layoutFrom_append {is : List Insertion} {front back : List Char}
    (apart : ∀ i ∈ is, i.offset = Text.size front ∨
      Text.size front + Text.size back < i.offset) (behind : List Char) :
    ∃ later, layoutFrom is 0 (front ++ back ++ behind) =
      front ++ textsAt is (Text.size front) ++ back ++ later := by
  have front_clear : ∀ i ∈ is, ¬ (0 ≤ i.offset ∧ i.offset < 0 + Text.size front) := by
    intro i mem
    have := apart i mem
    omega
  rw [List.append_assoc, layoutFrom_append front_clear, Nat.zero_add]
  cases back with
  | nil =>
    obtain ⟨later, eq⟩ := exists_layoutFrom_eq is (Text.size front) behind
    exact ⟨later, by rw [List.nil_append, eq]; simp⟩
  | cons c cs =>
    have back_clear : ∀ i ∈ is, ¬ (Text.size front + c.utf8Size ≤ i.offset ∧
        i.offset < Text.size front + c.utf8Size + Text.size cs) := by
      intro i mem
      have near := apart i mem
      have pos := c.utf8Size_pos
      rw [Text.size_cons] at near
      omega
    refine ⟨layoutFrom is (Text.size front + c.utf8Size + Text.size cs) behind, ?_⟩
    rw [List.cons_append, layoutFrom, layoutFrom_append back_clear]
    simp

/-- Behind the last insertion, the layout keeps the text. -/
theorem layoutFrom_of_le {is : List Insertion} {position : Nat}
    (passed : ∀ i ∈ is, i.offset ≤ position) (text : List Char) :
    layoutFrom is position text = textsAt is position ++ text := by
  cases text with
  | nil => exact (List.append_nil _).symm
  | cons c cs =>
    have pos := c.utf8Size_pos
    have later : layoutFrom is (position + c.utf8Size) cs = layoutFrom [] (position + c.utf8Size) cs :=
      layoutFrom_congr fun p le => (textsAt_eq_nil fun i mem => by have := passed i mem; omega).trans
        (textsAt_eq_nil (List.forall_mem_nil _)).symm
    rw [layoutFrom, later, layoutFrom_nil]

/-- Where everything is inserted at two places, the layout keeps the text around them. -/
theorem layoutFrom_two {is : List Insertion} {front middle : List Char} (nonempty : middle ≠ [])
    (places : ∀ i ∈ is, i.offset = Text.size front ∨ i.offset = Text.size (front ++ middle))
    (behind : List Char) :
    layoutFrom is 0 (front ++ middle ++ behind) =
      front ++ textsAt is (Text.size front) ++ middle ++ textsAt is (Text.size (front ++ middle)) ++
        behind := by
  obtain ⟨c, cs, rfl⟩ := List.exists_cons_of_ne_nil nonempty
  have pos := c.utf8Size_pos
  simp only [Text.size_append, Text.size_cons, ← Nat.add_assoc] at places ⊢
  have front_clear : ∀ i ∈ is, ¬ (0 ≤ i.offset ∧ i.offset < 0 + Text.size front) := by
    intro i mem
    have := places i mem
    omega
  have middle_clear : ∀ i ∈ is, ¬ (Text.size front + c.utf8Size ≤ i.offset ∧
      i.offset < Text.size front + c.utf8Size + Text.size cs) := by
    intro i mem
    have := places i mem
    omega
  have passed : ∀ i ∈ is, i.offset ≤ Text.size front + c.utf8Size + Text.size cs := by
    intro i mem
    have := places i mem
    omega
  rw [List.append_assoc, layoutFrom_append front_clear, Nat.zero_add, List.cons_append, layoutFrom,
    layoutFrom_append middle_clear, layoutFrom_of_le passed]
  simp

/-- The first of sorted insertions may be written in front of the layout of the others. -/
theorem layoutFrom_cons {i : Insertion} {is : List Insertion} (h : Sorted (i :: is))
    (text : List Char) :
    layoutFrom (i :: is) i.offset text = i.text.toList ++ layoutFrom is i.offset text := by
  cases text with
  | nil => exact textsAt_cons_self h
  | cons c cs =>
    have pos := c.utf8Size_pos
    have later : layoutFrom (i :: is) (i.offset + c.utf8Size) cs =
        layoutFrom is (i.offset + c.utf8Size) cs :=
      layoutFrom_congr fun p hp => textsAt_cons_of_ne (by omega)
    rw [layoutFrom, layoutFrom, textsAt_cons_self h, later, List.append_assoc]

/-- **The walk makes the layout.**  From a position in front of sorted insertions, at each of which
the text can be cut, the walk does not fail, and its text is their layout. -/
theorem weave?_eq_layoutFrom {is : List Insertion} {position : Nat} {text : List Char}
    (h : Sorted is) (ahead : ∀ i ∈ is, position ≤ i.offset)
    (boundary : ∀ i ∈ is, Text.IsBoundary text (i.offset - position)) :
    weave? position text is = some (layoutFrom is position text) := by
  induction is generalizing position text with
  | nil => simp [weave?]
  | cons i rest ih =>
    obtain ⟨first, tail⟩ := List.pairwise_cons.1 h
    have ahead' := ahead i List.mem_cons_self
    obtain ⟨⟨before, after⟩, cut⟩ :=
      Option.isSome_iff_exists.1 (boundary i List.mem_cons_self)
    obtain ⟨rfl, size⟩ := Text.eq_append_of_splitAt? cut
    have cursor : position + Text.size before = i.offset := by omega
    have behind : ∀ j ∈ i :: rest, i.offset ≤ j.offset := by
      intro j hj
      rcases List.mem_cons.1 hj with rfl | hj
      · exact Nat.le_refl _
      · have := (notAfter_iff i j).1 (first j hj)
        omega
    have walk : weave? i.offset after rest = some (layoutFrom rest i.offset after) := by
      refine ih tail (fun j hj => behind j (List.mem_cons_of_mem _ hj)) fun j hj => ?_
      have le := behind j (List.mem_cons_of_mem _ hj)
      have cut' := boundary j (List.mem_cons_of_mem _ hj)
      rw [Text.isBoundary_append (by omega)] at cut'
      rwa [show j.offset - i.offset = j.offset - position - Text.size before by omega]
    calc weave? position (before ++ after) (i :: rest)
        = some (before ++ i.text.toList ++ layoutFrom rest i.offset after) := by
          rw [weave?, if_neg (by omega), cut]
          simp [walk]
      _ = some (layoutFrom (i :: rest) position (before ++ after)) := by
          rw [layoutFrom_append fun j hj => by have := behind j hj; omega, cursor,
            layoutFrom_cons h, List.append_assoc]

/-- A session's text is its layout. -/
theorem edited?_eq_layout (s : Session) : s.edited? = some s.layout := by
  have walk : weave? 0 s.snapshot.toList (sorted s.insertions) =
      some (layoutFrom (sorted s.insertions) 0 s.snapshot.toList) := by
    refine weave?_eq_layoutFrom (sorted_sorted _) (fun i _ => Nat.zero_le _) fun i hi => ?_
    exact s.boundary i (mem_sorted.1 hi)
  rw [edited?, walk, layoutFrom_congr fun p _ => textsAt_sorted s.insertions p]
  rfl

/-! ### Byte by byte -/

/-- The byte form of what stands at a byte position of the edited text: the texts inserted there,
left before right, then the snapshot's byte, unless the position is the snapshot's end. -/
def bytesAt (snapshot : List Char) (is : List Insertion) (position : Nat) : List UInt8 :=
  Text.bytes (textsAt is position) ++ (Text.bytes snapshot)[position]?.toList

private theorem flatMap_range_getElem? (l : List UInt8) :
    (List.range l.length).flatMap (fun k => l[k]?.toList) = l := by
  induction l with
  | nil => rfl
  | cons b l ih =>
    rw [List.length_cons, List.range_succ_eq_map, List.flatMap_cons, List.flatMap_map]
    simpa using ih

/-- The bytes of a character come one after another, with insertions only in front of the first. -/
private theorem flatMap_range_char {c : Char} {cs : List Char} {at' : Nat → List UInt8}
    (inside : ∀ k, 0 < k → k < c.utf8Size → at' k = []) :
    (List.range c.utf8Size).flatMap
        (fun k => at' k ++ (String.utf8EncodeChar c ++ Text.bytes cs)[k]?.toList) =
      at' 0 ++ String.utf8EncodeChar c := by
  have length := String.length_utf8EncodeChar c
  have pos := c.utf8Size_pos
  generalize String.utf8EncodeChar c = code at length
  rw [← length] at inside pos ⊢
  cases code with
  | nil => simp at pos
  | cons b code =>
    have rest : (List.range code.length).flatMap
        (fun k => at' (k + 1) ++ (b :: code ++ Text.bytes cs)[k + 1]?.toList) = code := by
      refine Eq.trans ?_ (flatMap_range_getElem? code)
      refine List.flatMap_congr fun k hk => ?_
      have lt : k < code.length := List.mem_range.1 hk
      rw [inside (k + 1) (by omega) (by simpa using lt)]
      simp [List.getElem?_append_left lt]
    rw [List.length_cons, List.range_succ_eq_map, List.flatMap_cons, List.flatMap_map]
    simpa using rest

/-- The layout read byte by byte, where the text can be cut at each insertion. -/
theorem bytes_layoutFrom {is : List Insertion} {text : List Char} {position : Nat}
    (boundary : ∀ i ∈ is, position ≤ i.offset → Text.IsBoundary text (i.offset - position)) :
    Text.bytes (layoutFrom is position text) =
      (List.range (Text.size text + 1)).flatMap fun k =>
        Text.bytes (textsAt is (position + k)) ++ (Text.bytes text)[k]?.toList := by
  induction text generalizing position with
  | nil => simp [layoutFrom]
  | cons c cs ih =>
    have later := @ih (position + c.utf8Size) fun i hi le => by
      have cut := boundary i hi (by omega)
      rwa [Text.isBoundary_cons (by omega), Nat.sub_sub] at cut
    have inside : ∀ k, 0 < k → k < c.utf8Size → Text.bytes (textsAt is (position + k)) = [] := by
      intro k pos lt
      rw [textsAt_eq_nil fun i hi here => ?_]
      · rfl
      · have cut := boundary i hi (by omega)
        exact Text.not_isBoundary_inside (by omega) (by omega) cut
    have behind : ∀ k, (Text.bytes (c :: cs))[c.utf8Size + k]? = (Text.bytes cs)[k]? := by
      intro k
      have length := String.length_utf8EncodeChar c
      rw [Text.bytes_cons, List.getElem?_append_right (by omega), length, Nat.add_sub_cancel_left]
    calc Text.bytes (layoutFrom is position (c :: cs))
        = (Text.bytes (textsAt is position) ++ String.utf8EncodeChar c) ++
            Text.bytes (layoutFrom is (position + c.utf8Size) cs) := by
          rw [layoutFrom, Text.bytes_append, Text.bytes_cons, List.append_assoc]
      _ = (List.range (c.utf8Size + (Text.size cs + 1))).flatMap fun k =>
            Text.bytes (textsAt is (position + k)) ++ (Text.bytes (c :: cs))[k]?.toList := by
          rw [later, @List.range_add c.utf8Size, List.flatMap_append, List.flatMap_map, Text.bytes_cons,
            flatMap_range_char inside, ← Text.bytes_cons]
          simp only [behind, Nat.add_zero, Nat.add_assoc]
      _ = _ := by rw [Text.size_cons, Nat.add_assoc]

/-! ### Runs of insertions -/

/-- The session after the insertions, made one after another; the first one that is refused ends
the run. -/
def insertAll (s : Session) : List Insertion → Except Refusal Session
  | [] => .ok s
  | i :: rest =>
    match s.insert i.offset i.text i.side with
    | .error refusal => .error refusal
    | .ok longer => longer.insertAll rest

theorem insert_eq_ok {s longer : Session} {offset : Nat} {text : String} {side : Side}
    (h : s.insert offset text side = .ok longer) :
    longer.snapshot = s.snapshot ∧ longer.insertions = s.insertions ++ [⟨offset, text, side⟩] := by
  rw [insert] at h
  split at h
  · cases h
    exact ⟨rfl, rfl⟩
  · cases h

/-- A run keeps the snapshot and appends what it inserts. -/
theorem insertAll_eq_ok {s last : Session} {calls : List Insertion}
    (h : s.insertAll calls = .ok last) :
    last.snapshot = s.snapshot ∧ last.insertions = s.insertions ++ calls := by
  induction calls generalizing s with
  | nil =>
    cases h
    simp
  | cons i rest ih =>
    rw [insertAll] at h
    split at h
    · cases h
    case h_2 longer accepted =>
      obtain ⟨snapshot, insertions⟩ := insert_eq_ok accepted
      obtain ⟨snapshot', insertions'⟩ := ih h
      exact ⟨snapshot'.trans snapshot, by rw [insertions', insertions, List.append_assoc]; rfl⟩

/-- A session without insertions leaves its text as it is. -/
theorem apply_start (path snapshot : String) : (start path snapshot).apply = snapshot := by
  rw [apply, edited?]
  simp [start, sorted, weave?]

/-- A run leaves the layout of what it inserts. -/
theorem toList_apply_of_insertAll {path snapshot : String} {calls : List Insertion} {s : Session}
    (accepted : (start path snapshot).insertAll calls = .ok s) :
    s.apply.toList = layoutFrom calls 0 snapshot.toList := by
  obtain ⟨same, made⟩ := insertAll_eq_ok accepted
  rw [apply, edited?_eq_layout, Option.getD_some, layout, String.toList_ofList, same, made]
  rfl

/-- **The edited text.**  After any run of accepted insertions into a snapshot, the walk does not
fail, and what it makes reads, byte position by byte position: the texts inserted there on the left
in call order, those on the right in call order, the snapshot's byte.  Two runs that agree at each
place, whatever their interleaving, make the same text. -/
theorem edited?_insertAll {path snapshot : String} {calls : List Insertion} {s : Session}
    (accepted : (start path snapshot).insertAll calls = .ok s) :
    (∃ edited, s.edited? = some edited ∧
      Text.bytes edited.toList =
        (List.range (Text.size snapshot.toList + 1)).flatMap (bytesAt snapshot.toList calls)) ∧
    ∀ calls' s', (start path snapshot).insertAll calls' = .ok s' →
      (∀ offset side, calls'.filter (isAt offset side) = calls.filter (isAt offset side)) →
        s'.edited? = s.edited? := by
  obtain ⟨same, made⟩ := insertAll_eq_ok accepted
  obtain rfl : s.insertions = calls := made
  have cuts : ∀ i ∈ s.insertions, Text.IsBoundary snapshot.toList i.offset := by
    have := s.boundary
    rwa [same] at this
  refine ⟨⟨s.layout, edited?_eq_layout s, ?_⟩, fun calls' s' accepted' agree => ?_⟩
  · rw [layout, same, String.toList_ofList, bytes_layoutFrom fun i hi _ => cuts i hi]
    simp only [Nat.zero_add]
    rfl
  · obtain ⟨same', made'⟩ := insertAll_eq_ok accepted'
    obtain rfl : s'.insertions = calls' := made'
    rw [edited?_eq_layout, edited?_eq_layout, layout, layout, same, same',
      layoutFrom_congr fun p _ => textsAt_congr fun side => agree p side]

/-- Left before right at one place, whatever the order of the calls, and the end of the snapshot
behind a character of two bytes. -/
theorem edited?_insertAll_shared :
    ∃ s, (start "p" "aé").insertAll [⟨1, "R", .right⟩, ⟨3, "!", .left⟩, ⟨1, "L", .left⟩] = .ok s ∧
      ∃ edited, s.edited? = some edited ∧
        Text.bytes edited.toList = Text.bytes "aLRé!".toList := by
  have accepted : ∃ s, (start "p" "aé").insertAll
      [⟨1, "R", .right⟩, ⟨3, "!", .left⟩, ⟨1, "L", .left⟩] = .ok s := ⟨_, rfl⟩
  obtain ⟨s, accepted⟩ := accepted
  obtain ⟨edited, applied, reads⟩ := (edited?_insertAll accepted).1
  refine ⟨s, accepted, edited, applied, reads.trans ?_⟩
  decide

end Session

end Edit

end ModelGrid
