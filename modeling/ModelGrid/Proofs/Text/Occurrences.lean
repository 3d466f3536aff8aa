import ModelGrid.Text.Offset
import Mathlib.Data.List.Infix

/-!
# How often a word stands in a text

Every place where a word begins in a text is counted, whatever stands around it.  A text that is put
together of two parts has the word at least as often as these; it may have it once more where the
word goes over from the one to the other (`Text.Crosses`).  A text over whose ends the word never goes
may be inserted anywhere, and brings no more of it than it has itself (`Text.occurrences_insert_le`).

## Main definitions

* `Text.occurrences`: how often a word stands in a text.
* `Text.Inert`: the word does not go over an end of the text.

## Main results

* `Text.occurrences_insert_le`: a text with another one inserted into it.
-/

namespace ModelGrid.Text

/-- How often a word stands in a text. -/
def occurrences (word : List Char) : List Char → Nat
  | [] => 0
  | c :: cs => (if word <+: c :: cs then 1 else 0) + occurrences word cs

/-- The word begins at the end of the first text and goes on in the second. -/
def Crosses (word a b : List Char) : Prop :=
  ∃ x y, x ≠ [] ∧ y ≠ [] ∧ x ++ y = word ∧ x <:+ a ∧ y <+: b

/-- The word goes over no end of the text, whatever stands in front of it and behind it. -/
structure Inert (word text : List Char) : Prop where
  begins : ∀ front back, ¬ Crosses word front (text ++ back)
  ends : ∀ back, ¬ Crosses word text back

variable {word a b c : List Char}

theorem not_crosses_of_head (other : ∀ d, b.head? = some d → d ∉ word) : ¬ Crosses word a b := by
  rintro ⟨x, y, -, nonempty, rfl, -, rest, rfl⟩
  cases y with
  | nil => exact nonempty rfl
  | cons d y => exact other d rfl (by simp)

theorem not_crosses_of_last (other : ∀ d, a.getLast? = some d → d ∉ word) : ¬ Crosses word a b := by
  rintro ⟨x, y, nonempty, -, rfl, ⟨rest, rfl⟩, -⟩
  rcases List.eq_nil_or_concat' x with rfl | ⟨init, d, rfl⟩
  · exact nonempty rfl
  · exact other d (by simp) (by simp)

theorem not_crosses_of_not_mem {d : Char} (first : word.head? = some d) (other : d ∉ a) :
    ¬ Crosses word a b := by
  rintro ⟨x, y, nonempty, -, rfl, ends, -⟩
  cases x with
  | nil => exact nonempty rfl
  | cons e x =>
    cases first
    exact other (ends.subset List.mem_cons_self)

theorem occurrences_append_le (word a b : List Char) :
    occurrences word a + occurrences word b ≤ occurrences word (a ++ b) := by
  induction a with
  | nil => simp [occurrences]
  | cons d a ih =>
    have one : (if word <+: d :: a then 1 else 0) ≤ if word <+: d :: (a ++ b) then 1 else 0 := by
      split
      next here =>
        have longer : word <+: d :: (a ++ b) := here.trans (List.prefix_append (d :: a) b)
        rw [if_pos longer]
      next => exact Nat.zero_le _
    rw [List.cons_append, occurrences, occurrences]
    omega

theorem occurrences_append (apart : ¬ Crosses word a b) :
    occurrences word (a ++ b) = occurrences word a + occurrences word b := by
  induction a with
  | nil => simp [occurrences]
  | cons d a ih =>
    have a_apart : ¬ Crosses word a b := fun ⟨x, y, x_some, y_some, eq, ends, begins⟩ =>
      apart ⟨x, y, x_some, y_some, eq, ends.trans (List.suffix_cons d a), begins⟩
    have one : word <+: d :: (a ++ b) ↔ word <+: d :: a := by
      refine ⟨fun ⟨rest, eq⟩ => ?_, fun here => here.trans (List.prefix_append (d :: a) b)⟩
      rw [← List.cons_append] at eq
      rcases List.append_eq_append_iff.mp eq with
        ⟨more, whole, -⟩ | ⟨more, word_eq, b_eq⟩
      · exact ⟨more, whole.symm⟩
      · cases more with
        | nil => exact ⟨[], by rw [word_eq, List.append_nil, List.append_nil]⟩
        | cons e more =>
          exact absurd ⟨d :: a, e :: more, List.cons_ne_nil _ _, List.cons_ne_nil _ _, word_eq.symm,
            List.suffix_rfl, rest, b_eq.symm⟩ apart
    rw [List.cons_append, occurrences, occurrences, ih a_apart, Nat.add_assoc]
    simp only [one]

theorem occurrences_le_of_isInfix (part : a <:+: b) : occurrences word a ≤ occurrences word b := by
  obtain ⟨front, back, rfl⟩ := part
  have outer := occurrences_append_le word (front ++ a) back
  have inner := occurrences_append_le word front a
  omega

theorem occurrences_of_not_isInfix (absent : ¬ word <:+: a) : occurrences word a = 0 := by
  induction a with
  | nil => rfl
  | cons e a ih =>
    rw [occurrences, if_neg fun here => absent here.isInfix,
      ih fun later => absent (later.trans (List.suffix_cons e a).isInfix)]

theorem occurrences_eq_zero {d : Char} (letter : d ∈ word) (other : d ∉ a) : occurrences word a = 0 :=
  occurrences_of_not_isInfix fun part => other (part.subset letter)

theorem occurrences_pos (nonempty : word ≠ []) (part : word <:+: a) : 0 < occurrences word a := by
  have one : 0 < occurrences word word := by
    cases word with
    | nil => exact absurd rfl nonempty
    | cons d rest =>
      rw [occurrences, if_pos List.prefix_rfl]
      omega
  exact Nat.lt_of_lt_of_le one (occurrences_le_of_isInfix part)

/-- **A text with another one inserted into it** has the word at most as often as both of them. -/
theorem occurrences_insert_le (inert : Inert word b) (a c : List Char) :
    occurrences word (a ++ b ++ c) ≤ occurrences word (a ++ c) + occurrences word b := by
  have around := occurrences_append_le word a c
  rw [List.append_assoc, occurrences_append (inert.begins a c), occurrences_append (inert.ends c)]
  omega

end ModelGrid.Text
