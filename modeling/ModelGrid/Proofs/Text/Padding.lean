import ModelGrid.Proofs.Text.Line
import Mathlib.Data.List.TakeWhile

/-!
# Blanks around texts

Blanks at the ends of a text reach into nothing that is looked for in it, as long as what is looked for
begins and ends in other characters: it is erased from the text and not from the blanks
(`eraseFirst_append_of_not_mem`), and trimming does not cut into it (`isInfix_trim`).

## Main results

* `Text.eraseFirst_cases`: what is erased.
* `Text.exists_blanks_trim`, `Text.trim_append_blanks`: a text is trimmed of its blanks.
* `Text.isInfix_trim`: what is not blank at its ends is still there in the trimmed text.
-/

namespace ModelGrid.Text

/-! ### Erasing -/

/-- What is erased is one occurrence of the part, or nothing. -/
theorem eraseFirst_cases (part cs : List Char) :
    eraseFirst part cs = cs ∨
      ∃ before after, cs = before ++ (part ++ after) ∧ eraseFirst part cs = before ++ after := by
  induction cs with
  | nil => exact .inl rfl
  | cons c cs ih =>
    rw [eraseFirst]
    split
    next rest found => exact .inr ⟨[], rest, (dropPart?_eq_some.mp found :), rfl⟩
    next =>
      rcases ih with same | ⟨before, after, eq, erased⟩
      · exact .inl (congrArg (c :: ·) same)
      · exact .inr ⟨c :: before, after, congrArg (c :: ·) eq, congrArg (c :: ·) erased⟩

/-- A part is erased from the front of a text if its last character is not in the back. -/
theorem eraseFirst_append_of_not_mem {last : Char} {back : List Char} (clean : last ∉ back)
    (inner cs : List Char) :
    eraseFirst (inner ++ [last]) (cs ++ back) = eraseFirst (inner ++ [last]) cs ++ back := by
  induction cs with
  | nil => exact eraseFirst_of_not_isInfix fun inside => clean (inside.subset (by simp))
  | cons c cs ih =>
    rw [List.cons_append, eraseFirst, eraseFirst]
    cases found : dropPart? (inner ++ [last]) (c :: cs) with
    | some rest =>
      have longer : dropPart? (inner ++ [last]) (c :: (cs ++ back)) = some (rest ++ back) := by
        rw [dropPart?_eq_some, ← List.append_assoc, ← dropPart?_eq_some.mp found, List.cons_append]
      rw [longer]
    | none =>
      have nowhere (rest : List Char) : dropPart? (inner ++ [last]) (c :: cs) ≠ some rest := by
        simp [found]
      have not_here : dropPart? (inner ++ [last]) (c :: (cs ++ back)) = none := by
        refine Option.eq_none_iff_forall_ne_some.mpr fun rest here => ?_
        have eq : (c :: cs) ++ back = (inner ++ [last]) ++ rest := dropPart?_eq_some.mp here
        rcases List.append_eq_append_iff.mp eq with ⟨more, whole, tail⟩ | ⟨more, whole, -⟩
        · -- the part ends in what is behind the text, or where the text ends
          rcases List.eq_nil_or_concat' more with rfl | ⟨more', x, rfl⟩
          · exact nowhere [] (dropPart?_eq_some.mpr (by simpa using whole.symm))
          · rw [← List.append_assoc] at whole
            obtain rfl : last = x := by simpa using (List.append_inj' whole rfl).2
            exact clean (by simp [tail])
        · exact nowhere more (dropPart?_eq_some.mpr whole)
      rw [not_here]
      exact congrArg (c :: ·) ih

/-! ### Trimming -/

variable {blanks : List Char}

theorem trimRight_append_blanks (all : ∀ b ∈ blanks, isBlank b = true) (cs : List Char) :
    trimRight (cs ++ blanks) = trimRight cs := by
  induction blanks using List.reverseRecOn with
  | nil => rw [List.append_nil]
  | append_singleton blanks b ih =>
    rw [← List.append_assoc, trimRight_append_of_blank (all b (by simp))]
    exact ih fun b' mem => all b' (by simp [mem])

/-- Blanks behind a text make no difference. -/
theorem trim_append_blanks (all : ∀ b ∈ blanks, isBlank b = true) (cs : List Char) :
    trim (cs ++ blanks) = trim cs := by
  rw [trim, trim, trimLeft, trimLeft, List.dropWhile_append]
  split
  next blank =>
    have none_left : cs.dropWhile isBlank = [] := List.isEmpty_iff.mp blank
    rw [none_left, List.dropWhile_eq_nil_iff.mpr all]
  next => exact trimRight_append_blanks all _

theorem exists_blanks_trimRight (cs : List Char) :
    ∃ back, cs = trimRight cs ++ back ∧ ∀ b ∈ back, isBlank b = true := by
  induction cs using List.reverseRecOn with
  | nil => exact ⟨[], rfl, nofun⟩
  | append_singleton cs c ih =>
    obtain ⟨back, eq, all⟩ := ih
    cases blank : isBlank c with
    | true =>
      refine ⟨back ++ [c], ?_, ?_⟩
      · rw [trimRight_append_of_blank blank, ← List.append_assoc, ← eq]
      · simpa [blank, or_imp, forall_and] using all
    | false => exact ⟨[], by rw [trimRight_append_of_solid blank, List.append_nil], nofun⟩

/-- A text is what it is trimmed to, with blanks around it. -/
theorem exists_blanks_trim (cs : List Char) :
    ∃ front back, cs = front ++ trim cs ++ back ∧ (∀ b ∈ front, isBlank b = true) ∧
      ∀ b ∈ back, isBlank b = true := by
  obtain ⟨back, eq, all⟩ := exists_blanks_trimRight (trimLeft cs)
  refine ⟨cs.takeWhile isBlank, back, ?_, fun b => List.mem_takeWhile_imp, all⟩
  rw [List.append_assoc, trim, ← eq, trimLeft, List.takeWhile_append_dropWhile]

/-- What begins in no blank is still there when the front is trimmed. -/
theorem isInfix_trimLeft {c : Char} {w cs : List Char} (solid : isBlank c = false)
    (inside : c :: w <:+: cs) : c :: w <:+: trimLeft cs := by
  induction cs with
  | nil => exact absurd (List.infix_nil.mp inside) (by simp)
  | cons b bs ih =>
    cases blank : isBlank b with
    | false => rwa [trimLeft_of_solid blank]
    | true =>
      rw [trimLeft, List.dropWhile_cons_of_pos blank]
      rcases List.infix_cons_iff.mp inside with front | later
      · rw [(List.cons_prefix_cons.mp front).1, blank] at solid
        cases solid
      · exact ih later

/-- What ends in no blank is still there when the back is trimmed. -/
theorem isInfix_trimRight {c : Char} {w cs : List Char} (solid : isBlank c = false)
    (inside : w ++ [c] <:+: cs) : w ++ [c] <:+: trimRight cs := by
  obtain ⟨front, back, rfl⟩ := inside
  have kept : front ++ w ++ [c] <+: trimRight (front ++ w ++ c :: back) :=
    isPrefix_trimRight_append solid back
  have here : w ++ [c] <:+ front ++ w ++ [c] := ⟨front, by simp⟩
  have whole : front ++ (w ++ [c]) ++ back = front ++ w ++ c :: back := by simp
  rw [whole]
  exact here.isInfix.trans kept.isInfix

/-- **What has no blank at its ends is not cut into** by trimming. -/
theorem isInfix_trim {first last : Char} {word inner cs : List Char}
    (spelled : word = first :: (inner ++ [last])) (first_solid : isBlank first = false)
    (last_solid : isBlank last = false) (inside : word <:+: cs) : word <:+: trim cs := by
  subst spelled
  rw [← List.cons_append] at inside ⊢
  exact isInfix_trimRight last_solid (isInfix_trimLeft first_solid inside)

end ModelGrid.Text
