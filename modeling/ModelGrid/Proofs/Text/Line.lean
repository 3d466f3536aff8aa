import ModelGrid.Proofs.Text.Parts
import Mathlib.Data.List.Infix

/-!
# Taking a line apart that was put together

What the operations of `Text` make of a text whose parts are known: joined lines are split again, a
part that does not begin in the front of a text is not erased from it, and words with blanks between
them are its words.

## Main results

* `Text.splitOn_intercalate`: splitting undoes joining.
* `Text.eraseFirst_append`: a part that begins nowhere in the front leaves the front as it is.
* `Text.isInfix_of_isInfix_append_cons`: a part without a character lies on one side of it.
* `Text.words_three`: the words of a line of three.
-/

namespace ModelGrid.Text

/-! ### Stretches -/

theorem splitOn_of_not_mem {separator : Char} {cs : List Char} (clean : separator ∉ cs) :
    splitOn separator cs = [cs] := by
  induction cs with
  | nil => rfl
  | cons c cs ih =>
    have other : c ≠ separator := fun same => clean (by simp [same])
    have later : separator ∉ cs := fun mem => clean (List.mem_cons_of_mem c mem)
    simp [splitOn, other, ih later]

theorem splitOn_append_cons {separator : Char} {cs : List Char} (clean : separator ∉ cs)
    (rest : List Char) :
    splitOn separator (cs ++ separator :: rest) = cs :: splitOn separator rest := by
  induction cs with
  | nil => simp [splitOn]
  | cons c cs ih =>
    have other : c ≠ separator := fun same => clean (by simp [same])
    have later : separator ∉ cs := fun mem => clean (List.mem_cons_of_mem c mem)
    simp [splitOn, other, ih later]

theorem splitOn_ne_nil (separator : Char) (cs : List Char) : splitOn separator cs ≠ [] := by
  cases cs with
  | nil => simp [splitOn]
  | cons c cs =>
    rw [splitOn]
    split
    · simp
    · cases splitOn separator cs <;> simp

/-- There is one more stretch than there are separators. -/
theorem length_splitOn (separator : Char) (cs : List Char) :
    (splitOn separator cs).length = cs.count separator + 1 := by
  induction cs with
  | nil => rfl
  | cons c cs ih =>
    rw [splitOn]
    split
    next same =>
      rw [beq_iff_eq.mp same, List.count_cons_self, List.length_cons, ih]
    next other =>
      rw [List.count_cons_of_ne (by simpa using other), ← ih]
      cases stretches : splitOn separator cs with
      | nil => exact absurd stretches (splitOn_ne_nil separator cs)
      | cons stretch rest => rfl

/-- A separator between two texts ends a stretch of the first. -/
theorem splitOn_append (separator : Char) (xs ys : List Char) :
    splitOn separator (xs ++ separator :: ys) = splitOn separator xs ++ splitOn separator ys := by
  induction xs with
  | nil => simp [splitOn]
  | cons c cs ih =>
    by_cases same : c = separator
    · simp [splitOn, same, ih]
    · rw [List.cons_append, splitOn, splitOn, if_neg (by simpa using same),
        if_neg (by simpa using same), ih]
      cases stretches : splitOn separator cs with
      | nil => exact absurd stretches (splitOn_ne_nil separator cs)
      | cons stretch rest => rfl

/-- **Splitting undoes joining.** -/
theorem splitOn_intercalate {separator : Char} {parts : List (List Char)} (some_part : parts ≠ [])
    (clean : ∀ part ∈ parts, separator ∉ part) :
    splitOn separator ([separator].intercalate parts) = parts := by
  induction parts with
  | nil => exact absurd rfl some_part
  | cons first rest ih =>
    have first_clean : separator ∉ first := clean first (by simp)
    by_cases last : rest = []
    · subst last
      rw [List.intercalate_singleton]
      exact splitOn_of_not_mem first_clean
    · have joined : [separator].intercalate (first :: rest) =
          first ++ separator :: [separator].intercalate rest := by
        rw [List.intercalate_cons_of_ne_nil last, List.append_assoc]
        rfl
      rw [joined, splitOn_append_cons first_clean,
        ih last fun part mem => clean part (List.mem_cons_of_mem first mem)]

/-- **Joining undoes splitting.** -/
theorem intercalate_splitOn (separator : Char) (cs : List Char) :
    [separator].intercalate (splitOn separator cs) = cs := by
  induction cs with
  | nil => simp [splitOn]
  | cons c cs ih =>
    rw [splitOn]
    split
    next same =>
      rw [List.intercalate_cons_of_ne_nil (splitOn_ne_nil separator cs), ih, beq_iff_eq.mp same]
      rfl
    next =>
      split
      next none_there => exact absurd none_there (splitOn_ne_nil separator cs)
      next stretch rest stretches =>
        rw [stretches] at ih
        by_cases last : rest = []
        · rw [last, List.intercalate_singleton] at ih ⊢
          rw [ih]
        · rw [List.intercalate_cons_of_ne_nil last] at ih ⊢
          rw [List.cons_append, List.cons_append, ih]

/-- A text is known by its stretches. -/
theorem splitOn_injective (separator : Char) : Function.Injective (splitOn separator) := by
  intro xs ys same
  rw [← intercalate_splitOn separator xs, same, intercalate_splitOn]

/-! ### Parts -/

/-- A part that begins nowhere in the front of a text leaves the front as it is. -/
theorem eraseFirst_append {part front rest : List Char}
    (begins_later : ∀ s, s ≠ [] → s <:+ front → ¬ part <+: s ++ rest) :
    eraseFirst part (front ++ rest) = front ++ eraseFirst part rest := by
  induction front with
  | nil => rfl
  | cons c cs ih =>
    have not_here : dropPart? part (c :: (cs ++ rest)) = none := by
      cases found : dropPart? part (c :: (cs ++ rest)) with
      | none => rfl
      | some after =>
        have begins : part <+: c :: cs ++ rest := ⟨after, (dropPart?_eq_some.mp found).symm⟩
        exact absurd begins (begins_later (c :: cs) (by simp) List.suffix_rfl)
    have later : ∀ s, s ≠ [] → s <:+ cs → ¬ part <+: s ++ rest :=
      fun s ne suffix => begins_later s ne (suffix.trans (List.suffix_cons c cs))
    rw [List.cons_append, eraseFirst, not_here]
    exact congrArg (c :: ·) (ih later)

theorem eraseFirst_of_not_isInfix {part cs : List Char} (absent : ¬ part <:+: cs) :
    eraseFirst part cs = cs := by
  have begins_nowhere : ∀ s, s ≠ [] → s <:+ cs → ¬ part <+: s ++ [] := by
    intro s _ suffix begins
    rw [List.append_nil] at begins
    exact absent (begins.isInfix.trans suffix.isInfix)
  simpa [eraseFirst] using eraseFirst_append begins_nowhere

/-- **A part without a character lies on one side of it.** -/
theorem isInfix_of_isInfix_append_cons {part xs ys : List Char} {c : Char} (without : c ∉ part)
    (h : part <:+: xs ++ c :: ys) : part <:+: xs ∨ part <:+: ys := by
  induction xs with
  | nil =>
    rcases List.infix_cons_iff.mp h with ⟨rest, eq⟩ | later
    · cases part with
      | nil => exact .inl List.nil_infix
      | cons d ds =>
        have same : d = c := by
          rw [List.cons_append] at eq
          exact (List.cons.inj eq).1
        exact absurd (by simp [same]) without
    · exact .inr later
  | cons x xs ih =>
    rcases List.infix_cons_iff.mp h with ⟨rest, eq⟩ | later
    · left
      have whole_eq : part ++ rest = (x :: xs) ++ (c :: ys) := eq
      have front : part <+: x :: xs := by
        rcases List.append_eq_append_iff.mp whole_eq with
          ⟨more, whole, -⟩ | ⟨more, whole, tail⟩
        · exact ⟨more, whole.symm⟩
        · cases more with
          | nil => exact ⟨[], by rw [whole]; simp⟩
          | cons d ds =>
            have same : c = d := (List.cons.inj tail).1
            exact absurd (by simp [whole, same]) without
      exact front.isInfix
    · exact (ih later).imp (fun inside => inside.trans (List.suffix_cons x xs).isInfix) id

theorem not_isInfix_of_hasPart {part cs : List Char} (absent : hasPart part cs = false) :
    ¬ part <:+: cs := by
  intro inside
  rw [hasPart_iff.mpr inside] at absent
  cases absent

/-- An end of two texts reaches over the second one if its first character is not in it. -/
theorem suffix_append_cases {c : Char} {s xs ys : List Char} (h : c :: s <:+ xs ++ ys) :
    c :: s <:+ ys ∨ ∃ t, c :: t <:+ xs ∧ s = t ++ ys := by
  obtain ⟨p, eq⟩ := h
  rcases List.append_eq_append_iff.mp eq with ⟨more, front, back⟩ | ⟨more, front, back⟩
  · cases more with
    | nil => exact .inl ⟨[], by simpa using back⟩
    | cons d t =>
      obtain ⟨rfl, rest⟩ := List.cons.inj back
      exact .inr ⟨t, ⟨p, front.symm⟩, rest⟩
  · exact .inl ⟨more, back.symm⟩

theorem beforeLast?_append {part cs rest before : List Char}
    (last : beforeLast? part rest = some before) :
    beforeLast? part (cs ++ rest) = some (cs ++ before) := by
  induction cs with
  | nil => exact last
  | cons c cs ih => rw [List.cons_append, beforeLast?, ih]; rfl

theorem beforeLast?_eq_none {part cs : List Char} (absent : ¬ part <:+: cs) :
    beforeLast? part cs = none := by
  have not_here {later : List Char} (suffix : later <:+ cs) : dropPart? part later = none := by
    refine Option.eq_none_iff_forall_ne_some.mpr fun rest found => absent ?_
    have begins : part <+: later := ⟨rest, (dropPart?_eq_some.mp found).symm⟩
    exact begins.isInfix.trans suffix.isInfix
  induction cs with
  | nil => rw [beforeLast?, not_here List.suffix_rfl]; rfl
  | cons c cs ih =>
    have later : beforeLast? part cs = none :=
      ih (fun inside => absent (inside.trans (List.suffix_cons c cs).isInfix))
        fun suffix => not_here (suffix.trans (List.suffix_cons c cs))
    rw [beforeLast?, later, not_here List.suffix_rfl]
    rfl

/-- The text in front of a part that begins nowhere behind. -/
theorem beforeLast?_of_last {part rest : List Char} (some_part : part ≠ [])
    (last : ¬ part <:+: (part ++ rest).tail) (cs : List Char) :
    beforeLast? part (cs ++ (part ++ rest)) = some cs := by
  have found : beforeLast? part (part ++ rest) = some [] := by
    obtain ⟨c, part', rfl⟩ := List.exists_cons_of_ne_nil some_part
    have here : dropPart? (c :: part') (c :: (part' ++ rest)) = some rest :=
      dropPart?_eq_some.mpr rfl
    have later : beforeLast? (c :: part') (part' ++ rest) = none := beforeLast?_eq_none last
    rw [List.cons_append, beforeLast?, later, here]
    rfl
  simpa using beforeLast?_append found

/-- There is a last one of the occurrences of a part. -/
theorem exists_last_of_isInfix {part cs : List Char} (some_part : part ≠ [])
    (inside : part <:+: cs) :
    ∃ before after, cs = before ++ (part ++ after) ∧ ¬ part <:+: (part ++ after).tail := by
  induction cs with
  | nil => exact absurd (List.infix_nil.mp inside) some_part
  | cons c cs ih =>
    by_cases later : part <:+: cs
    · obtain ⟨before, after, eq, last⟩ := ih later
      exact ⟨c :: before, after, congrArg (c :: ·) eq, last⟩
    · obtain ⟨after, eq⟩ := (List.infix_cons_iff.mp inside).resolve_right later
      exact ⟨[], after, eq.symm, eq ▸ later⟩

/-- Two texts with a character between their parts agree part by part, where it is its first. -/
theorem append_cons_inj {c : Char} {xs ys rest rest' : List Char} (not_xs : c ∉ xs) (not_ys : c ∉ ys)
    (eq : xs ++ c :: rest = ys ++ c :: rest') : xs = ys ∧ rest = rest' := by
  have split := congrArg (splitOn c) eq
  rw [splitOn_append_cons not_xs, splitOn_append_cons not_ys] at split
  obtain rfl := (List.cons.inj split).1
  exact ⟨rfl, (List.cons.inj (List.append_cancel_left eq)).2⟩

/-- Two texts with a character between their parts agree part by part, where it is its last. -/
theorem append_cons_inj_right {c : Char} {xs ys rest rest' : List Char} (not_rest : c ∉ rest)
    (not_rest' : c ∉ rest') (eq : xs ++ c :: rest = ys ++ c :: rest') : xs = ys ∧ rest = rest' := by
  have reversed : rest.reverse ++ c :: xs.reverse = rest'.reverse ++ c :: ys.reverse := by
    simpa using congrArg List.reverse eq
  obtain ⟨back, front⟩ := append_cons_inj (by simpa using not_rest) (by simpa using not_rest') reversed
  exact ⟨List.reverse_inj.mp front, List.reverse_inj.mp back⟩

/-- Two texts in which different characters come first do not agree. -/
theorem append_cons_ne {c d : Char} {xs ys rest rest' : List Char} (ne : c ≠ d) (not_xs : d ∉ xs)
    (not_ys : c ∉ ys) : xs ++ c :: rest ≠ ys ++ d :: rest' := by
  intro eq
  rcases List.append_eq_append_iff.mp eq with ⟨more, front, back⟩ | ⟨more, front, back⟩
  · cases more with
    | nil => exact ne (List.cons.inj back).1
    | cons x t => exact not_ys (by simp [front, (List.cons.inj back).1])
  · cases more with
    | nil => exact ne (List.cons.inj back).1.symm
    | cons x t => exact not_xs (by simp [front, (List.cons.inj back).1])

/-! ### Trimming -/

theorem trimRight_append_of_blank {cs : List Char} {b : Char} (blank : isBlank b = true) :
    trimRight (cs ++ [b]) = trimRight cs := by
  induction cs with
  | nil => simp [trimRight, blank]
  | cons c cs ih => rw [List.cons_append, trimRight, trimRight, ih]

theorem trimRight_append_of_solid {cs : List Char} {b : Char} (solid : isBlank b = false) :
    trimRight (cs ++ [b]) = cs ++ [b] := by
  induction cs with
  | nil => simp [trimRight, solid]
  | cons c cs ih =>
    rw [List.cons_append, trimRight, ih]
    cases cs <;> rfl

/-- Only what stands behind the last character that is no blank is trimmed. -/
theorem trimRight_append_cons {b : Char} (solid : isBlank b = false) (cs rest : List Char) :
    trimRight (cs ++ b :: rest) = cs ++ b :: trimRight rest := by
  induction cs with
  | nil =>
    rw [List.nil_append, List.nil_append, trimRight]
    split
    next nothing => simp [solid, nothing]
    next => rfl
  | cons c cs ih =>
    rw [List.cons_append, trimRight, ih]
    cases cs <;> rfl

/-- Trimming keeps what ends in a character that is no blank. -/
theorem isPrefix_trimRight_append {cs : List Char} {b : Char} (solid : isBlank b = false)
    (rest : List Char) : cs ++ [b] <+: trimRight (cs ++ b :: rest) :=
  ⟨trimRight rest, by simp [trimRight_append_cons solid]⟩

theorem trimLeft_blanks_append {blanks cs : List Char} (all : ∀ b ∈ blanks, isBlank b = true) :
    trimLeft (blanks ++ cs) = trimLeft cs := by
  induction blanks with
  | nil => rfl
  | cons b bs ih =>
    rw [trimLeft, List.cons_append, List.dropWhile_cons_of_pos (all b (by simp))]
    exact ih fun b' mem => all b' (List.mem_cons_of_mem b mem)

theorem trimLeft_of_solid {c : Char} {cs : List Char} (solid : isBlank c = false) :
    trimLeft (c :: cs) = c :: cs := by
  rw [trimLeft, List.dropWhile_cons_of_neg (by simp [solid])]

/-! ### Words -/

theorem wordsFrom_append_blank {pending word : List Char} (ne : word ≠ [])
    (solid : ∀ c ∈ word, isBlank c = false) {b : Char} (blank : isBlank b = true)
    (rest : List Char) :
    wordsFrom pending (word ++ b :: rest) = (pending.reverse ++ word) :: wordsFrom [] rest := by
  induction word generalizing pending with
  | nil => exact absurd rfl ne
  | cons c cs ih =>
    have here : isBlank c = false := solid c (by simp)
    rw [List.cons_append, wordsFrom, here]
    by_cases last : cs = []
    · subst last
      simp [wordsFrom, blank]
    · have later : wordsFrom (c :: pending) (cs ++ b :: rest) =
          ((c :: pending).reverse ++ cs) :: wordsFrom [] rest :=
        ih last fun d mem => solid d (List.mem_cons_of_mem c mem)
      simpa using later

theorem wordsFrom_of_isWord {pending word : List Char} (ne : pending ++ word ≠ [])
    (solid : ∀ c ∈ word, isBlank c = false) :
    wordsFrom pending word = [pending.reverse ++ word] := by
  induction word generalizing pending with
  | nil =>
    have begun : pending.isEmpty = false := by simpa using ne
    simp [wordsFrom, begun]
  | cons c cs ih =>
    have here : isBlank c = false := solid c (by simp)
    have later : wordsFrom (c :: pending) cs = [(c :: pending).reverse ++ cs] :=
      ih (by simp) fun d mem => solid d (List.mem_cons_of_mem c mem)
    rw [wordsFrom, here]
    simpa using later

/-- **The words of a line of three.** -/
theorem words_three {u v w : List Char} (hu : IsWord u) (hv : IsWord v) (hw : IsWord w) :
    words (u ++ ' ' :: (v ++ ' ' :: w)) = [u, v, w] := by
  have blank : isBlank ' ' = true := by decide
  rw [words, wordsFrom_append_blank hu.1 hu.2 blank, wordsFrom_append_blank hv.1 hv.2 blank,
    wordsFrom_of_isWord (by simpa using hw.1) hw.2]
  rfl

end ModelGrid.Text
