import ModelGrid.Proofs.Syntax.Layout
import ModelGrid.Proofs.Syntax.Range
import ModelGrid.Proofs.Text.Occurrences
import Mathlib.Algebra.GroupWithZero.Nat

/-!
# The characters of nodes

In a well formed tree, the characters of a node are a part of those of every node around it, and the
characters of siblings are parts that do not overlap.  A word stands therefore in the characters of a
node at least as often as in those of its children together (`Node.sum_occurrences_chars_le`).

## Main results

* `Node.WellFormed.chars_isInfix`: the characters of a node are within those of a node around it.
* `Node.sum_occurrences_chars_le`: the words in the children of a node.
-/

namespace ModelGrid

namespace Text

/-- Of two beginnings of a text, the one that is not longer begins the other. -/
theorem exists_of_size_le {a b c d : List Char} (eq : a ++ b = c ++ d) (le : size a ≤ size c) :
    ∃ m, c = a ++ m ∧ b = m ++ d := by
  rcases List.append_eq_append_iff.mp eq with ⟨m, c_eq, b_eq⟩ | ⟨m, rfl, rfl⟩
  · exact ⟨m, c_eq, b_eq⟩
  · cases m with
    | nil => exact ⟨[], by simp, rfl⟩
    | cons e m =>
      have pos := e.utf8Size_pos
      rw [size_append, size_cons] at le
      omega

/-- A part of a text that is within the range of another one is a part of it. -/
theorem exists_part {text front body back front' part back' : List Char}
    (eq : text = front ++ body ++ back) (eq' : text = front' ++ part ++ back')
    (starts : size front ≤ size front') (stops : size (front' ++ part) ≤ size (front ++ body)) :
    ∃ less more, front' = front ++ less ∧ body = less ++ part ++ more := by
  have both : front' ++ part ++ back' = front ++ body ++ back := eq'.symm.trans eq
  obtain ⟨more, whole, -⟩ := exists_of_size_le both stops
  have inner : front ++ body = front' ++ (part ++ more) := by rw [whole, List.append_assoc]
  obtain ⟨less, rfl, body_eq⟩ := exists_of_size_le inner starts
  exact ⟨less, more, rfl, by rw [body_eq, List.append_assoc]⟩

theorem exists_slice {text : List Char} {start stop : Nat} (le : start ≤ stop)
    (starts : IsBoundary text start) (stops : IsBoundary text stop) :
    ∃ front back, text = front ++ slice text start stop ++ back ∧ size front = start ∧
      size (front ++ slice text start stop) = stop := by
  obtain ⟨⟨front, rest⟩, cut⟩ := Option.isSome_iff_exists.mp starts
  obtain ⟨⟨whole, back⟩, cut'⟩ := Option.isSome_iff_exists.mp stops
  obtain ⟨rfl, rfl⟩ := splitAt?_eq_some_iff.mp cut
  obtain ⟨eq, rfl⟩ := splitAt?_eq_some_iff.mp cut'
  obtain ⟨part, rfl, rfl⟩ := exists_of_size_le eq le
  have part_eq : slice (front ++ (part ++ back)) (size front) (size (front ++ part)) = part := by
    rw [size_append, ← List.append_assoc]
    exact slice_append front part back
  rw [part_eq]
  exact ⟨front, back, (List.append_assoc _ _ _).symm, rfl, rfl⟩

end Text

namespace Syntax.Node

variable {text : List Char} {root n x : Node}

theorem WellFormed.exists_chars (h : WellFormed text n) :
    ∃ front back, text = front ++ n.chars text ++ back ∧ Text.size front = n.start ∧
      Text.size (front ++ n.chars text) = n.stop := by
  cases h with
  | node label children le _ starts stops => exact Text.exists_slice le starts stops

/-- What a node covers is covered by the nodes around it. -/
theorem WellFormed.chars_isInfix (h : WellFormed text n) (there : x.IsIn n) :
    x.chars text <:+: n.chars text := by
  obtain ⟨outer, after, eq, outer_size, outer_end⟩ := h.exists_chars
  obtain ⟨front, back, eq', front_size, front_end⟩ := (h.isIn there).exists_chars
  obtain ⟨starts, stops⟩ := h.ordered.within there.choose_spec
  obtain ⟨less, more, -, whole⟩ := Text.exists_part eq eq' (by omega) (by omega)
  exact ⟨less, more, whole.symm⟩

/-- A word stands in a part of a text at least as often as in the nodes in it together. -/
theorem sum_occurrences_le (word : List Char) {children : List Node} {lower upper : Nat}
    (inOrder : InOrder lower upper children) (each : ∀ child ∈ children, WellFormed text child)
    {front body back : List Char} (eq : text = front ++ body ++ back)
    (lower_eq : Text.size front = lower) (upper_eq : Text.size (front ++ body) = upper) :
    (children.map fun child => Text.occurrences word (child.chars text)).sum ≤
      Text.occurrences word body := by
  induction children generalizing lower front body with
  | nil => exact Nat.zero_le _
  | cons child rest ih =>
    obtain ⟨child_formed, rest_formed⟩ := List.forall_mem_cons.mp each
    obtain ⟨-, -, stops⟩ := inOrder.bounds List.mem_cons_self
    obtain ⟨starts, -, rest_order⟩ := inOrder
    obtain ⟨front', back', eq', front_size, front_end⟩ := child_formed.exists_chars
    obtain ⟨gap, more, rfl, rfl⟩ := Text.exists_part eq eq' (by omega) (by omega)
    have text_eq : text = front ++ gap ++ child.chars text ++ more ++ back := eq.trans (by simp)
    have later := ih rest_order rest_formed text_eq front_end (by rw [← upper_eq]; simp)
    have parts := Text.occurrences_append_le word (gap ++ child.chars text) more
    have parts' := Text.occurrences_append_le word gap (child.chars text)
    rw [List.map_cons, List.sum_cons]
    omega

/-- **The words in the children of a node** stand in what it covers. -/
theorem sum_occurrences_chars_le (word : List Char) (h : WellFormed text n) :
    (n.children.map fun child => Text.occurrences word (child.chars text)).sum ≤
      Text.occurrences word (n.chars text) := by
  obtain ⟨front, back, eq, front_size, front_end⟩ := h.exists_chars
  cases h with
  | node label children _ inOrder _ _ _ _ each =>
    exact sum_occurrences_le word inOrder each eq front_size front_end

end Syntax.Node

end ModelGrid
