import ModelGrid.Naming
import ModelGrid.Proofs.Text.Ascii
import Mathlib.Data.List.Basic

/-!
# The characters of names

What a name of ASCII letters, digits and hyphens is made into: in paths, lower case letters, digits
and hyphens; in code, letters and digits behind a capital.

Such a name has no cluster of more than one character (`graphemes_of_printable`), which is what keeps
the separators out of its words.

## Main definitions

* `Naming.IsComponentName`, `Naming.IsModelName`, `Naming.IsFieldName`: what a component, a model and a
  property may be called.
* `Naming.IsDashed`, `Naming.IsCapitalized`: the characters of the two spellings.

## Main results

* `Naming.isDashed_kebabCase`, `Naming.isCapitalized_pascalCase`: the two spellings.
-/

namespace ModelGrid

namespace Text

/-! ### ASCII -/

/-- A character of ASCII that is no control character. -/
def IsPrintable (c : Char) : Prop := 0x20 ≤ c.toNat ∧ c.toNat < 0x7F

theorem IsPrintable.isAscii {c : Char} (h : IsPrintable c) : IsAscii c :=
  Nat.lt_trans h.2 (by decide)

/-- Every printable character of ASCII is a cluster of its own. -/
theorem graphemes_of_printable {cs : List Char} (h : ∀ c ∈ cs, IsPrintable c) :
    graphemes cs = cs.map fun c => [c] := by
  rw [graphemes_of_isAscii fun c mem => (h c mem).isAscii]
  fun_induction lineClusters cs with
  | case1 => rfl
  | case2 => rfl
  | case3 c d cs line_end ih =>
    obtain ⟨rfl, -⟩ := line_end
    exact absurd (h '\r' (by simp)).1 (by decide)
  | case4 c d cs no_end ih => exact congrArg ([c] :: ·) (ih fun e mem => h e (by simp [mem]))

theorem toUpper_of_printable {cs : List Char} (h : ∀ c ∈ cs, IsPrintable c) :
    toUpper cs = cs.map Char.toUpper :=
  toUpper_of_isAscii fun c mem => (h c mem).isAscii

theorem toLower_of_printable {cs : List Char} (h : ∀ c ∈ cs, IsPrintable c) :
    toLower cs = cs.map Char.toLower :=
  toLower_of_isAscii fun c mem => (h c mem).isAscii

end Text

namespace Naming

open Text

/-! ### Words -/

/-- The clusters of the words are those of the name that separate no words. -/
theorem mem_of_mem_wordsFrom {pending gs word : List (List Char)} {g : List Char}
    (mem : word ∈ wordsFrom pending gs) (h : g ∈ word) :
    g ∈ pending ∨ g ∈ gs ∧ isSeparator g = false := by
  induction gs generalizing pending with
  | nil =>
    rw [wordsFrom, List.mem_singleton] at mem
    exact .inl (by simpa [mem] using h)
  | cons first rest ih =>
    have later (h : g ∈ ([] : List (List Char)) ∨ g ∈ rest ∧ isSeparator g = false) :
        g ∈ first :: rest ∧ isSeparator g = false := by
      simpa using h.elim (by simp) fun h => ⟨.inr h.1, h.2⟩
    rw [wordsFrom] at mem
    split at mem
    next =>
      rcases List.mem_cons.mp mem with rfl | mem
      · exact .inl (by simpa using h)
      · exact .inr (later (ih mem))
    next word_part =>
      have own (h : g ∈ first :: pending) :
          g ∈ pending ∨ g ∈ first :: rest ∧ isSeparator g = false := by
        rcases List.mem_cons.mp h with rfl | h
        · exact .inr ⟨by simp, by simpa using word_part⟩
        · exact .inl h
      split at mem
      next =>
        rcases List.mem_cons.mp mem with rfl | mem
        · exact own (by simpa [or_comm] using h)
        · exact .inr (later (ih mem))
      next =>
        rcases ih mem with h | h
        · exact own h
        · exact .inr ⟨by simp [h.1], h.2⟩

/-- The first word goes on with what is pending. -/
theorem wordsFrom_eq_cons (pending gs : List (List Char)) :
    ∃ more rest, wordsFrom pending gs = (pending.reverse ++ more) :: rest := by
  induction gs generalizing pending with
  | nil => exact ⟨[], [], by simp [wordsFrom]⟩
  | cons first rest ih =>
    rw [wordsFrom]
    split
    · exact ⟨[], wordsFrom [] rest, by simp⟩
    · split
      · exact ⟨[first], wordsFrom [] rest, by simp⟩
      · obtain ⟨more, later, eq⟩ := ih (first :: pending)
        exact ⟨first :: more, later, by simp [eq]⟩

/-- A word of a printable name is made of single characters of the name, none a separator. -/
theorem eq_singleton_of_mem_words {name : List Char} (printable : ∀ c ∈ name, IsPrintable c)
    {word : List (List Char)} {g : List Char} (mem : word ∈ words name) (h : g ∈ word) :
    ∃ c ∈ name, g = [c] ∧ isSeparator [c] = false := by
  rw [words, graphemes_of_printable printable] at mem
  rcases mem_of_mem_wordsFrom mem h with h | ⟨h, separates_not⟩
  · cases h
  · obtain ⟨c, mem, rfl⟩ := List.mem_map.mp h
    exact ⟨c, mem, rfl, separates_not⟩

theorem mem_flatten_of_mem_words {name : List Char} (printable : ∀ c ∈ name, IsPrintable c)
    {word : List (List Char)} (mem : word ∈ words name) {c : Char} (h : c ∈ word.flatten) :
    c ∈ name ∧ isSeparator [c] = false := by
  obtain ⟨g, in_word, in_g⟩ := List.mem_flatten.mp h
  obtain ⟨d, in_name, rfl, apart⟩ := eq_singleton_of_mem_words printable mem in_word
  obtain rfl := List.mem_singleton.mp in_g
  exact ⟨in_name, apart⟩

/-! ### Spellings -/

/-- The characters that names are made of. -/
def IsNameChar (c : Char) : Prop :=
  c.isAlphanum = true ∨ c = '-' ∨ c = '_'

/-- A name of letters, digits and hyphens that begins with a letter, all of them ASCII. -/
def IsComponentName (name : String) : Prop :=
  ∃ c cs, name.toList = c :: cs ∧ c.isAlpha = true ∧ ∀ d ∈ cs, d.isAlphanum = true ∨ d = '-'

/-- Letters, digits and hyphens. -/
def IsDashed (cs : List Char) : Prop :=
  ∀ c ∈ cs, c.isAlphanum = true ∨ c = '-'

/-- Letters, digits and underscores, with a capital in front. -/
def IsCapitalized (cs : List Char) : Prop :=
  ∃ c rest, cs = c :: rest ∧ c.isUpper = true ∧ ∀ d ∈ rest, d.isAlphanum = true ∨ d = '_'

/-- A name of letters, digits and underscores that begins with a capital, all of them ASCII. -/
def IsModelName (name : String) : Prop := IsCapitalized name.toList

/-- A name of letters, digits and underscores that begins with a lower case letter, all of them
ASCII. -/
def IsFieldName (name : String) : Prop :=
  ∃ c cs, name.toList = c :: cs ∧ c.isLower = true ∧ ∀ d ∈ cs, d.isAlphanum = true ∨ d = '_'

instance (name : String) : Decidable (IsFieldName name) :=
  decidable_of_iff ((name.toList.head?.any Char.isLower && name.toList.tail.all fun d =>
      d.isAlphanum || d == '_') = true) <| by
    rw [IsFieldName]
    cases name.toList with
    | nil => simp
    | cons c cs => simp

theorem isUpper_iff {c : Char} : c.isUpper = true ↔ 65 ≤ c.toNat ∧ c.toNat ≤ 90 := by
  delta Char.isUpper
  simp only [decide_eq_true_eq, ge_iff_le, UInt32.le_iff_toNat_le]
  exact Iff.rfl

theorem isLower_iff {c : Char} : c.isLower = true ↔ 97 ≤ c.toNat ∧ c.toNat ≤ 122 := by
  delta Char.isLower
  simp only [Bool.and_eq_true, decide_eq_true_eq, ge_iff_le, UInt32.le_iff_toNat_le]
  exact Iff.rfl

theorem isDigit_iff {c : Char} : c.isDigit = true ↔ 48 ≤ c.toNat ∧ c.toNat ≤ 57 := by
  simp only [Char.isDigit, Bool.and_eq_true, decide_eq_true_eq, ge_iff_le, UInt32.le_iff_toNat_le]
  exact Iff.rfl

/-- A letter is no digit. -/
theorem isDigit_of_isAlpha {c : Char} (h : c.isAlpha = true) : c.isDigit = false := by
  rw [Bool.eq_false_iff]
  intro digit
  have low := isDigit_iff.mp digit
  rcases Bool.or_eq_true_iff.mp h with upper | lower
  · have := isUpper_iff.mp upper
    omega
  · have := isLower_iff.mp lower
    omega

theorem isAlphanum_iff {c : Char} : c.isAlphanum = true ↔
    (65 ≤ c.toNat ∧ c.toNat ≤ 90 ∨ 97 ≤ c.toNat ∧ c.toNat ≤ 122) ∨
      48 ≤ c.toNat ∧ c.toNat ≤ 57 := by
  delta Char.isAlphanum Char.isAlpha
  rw [Bool.or_eq_true, Bool.or_eq_true, isUpper_iff, isLower_iff,
    isDigit_iff]

theorem isAlpha_of_isUpper {c : Char} (h : c.isUpper = true) : c.isAlpha = true :=
  Bool.or_eq_true_iff.mpr (.inl h)

theorem isPrintable_of_isNameChar {c : Char} (h : IsNameChar c) : IsPrintable c := by
  rcases h with alphanumeric | rfl | rfl
  · have := isAlphanum_iff.mp alphanumeric
    exact ⟨by omega, by omega⟩
  · exact ⟨by decide, by decide⟩
  · exact ⟨by decide, by decide⟩

/-- A character of a name that separates no words is a letter or a digit. -/
theorem isAlphanum_of_isSeparator_eq_false {c : Char} (h : IsNameChar c)
    (apart : isSeparator [c] = false) : c.isAlphanum = true := by
  rcases h with alphanumeric | rfl | rfl
  · exact alphanumeric
  · cases apart
  · cases apart

theorem isAlphanum_cases :
    ∀ n < 0x7F, (Char.ofNat n).isAlphanum = true →
      (Char.ofNat n).toLower.isAlphanum = true ∧ (Char.ofNat n).toUpper.isAlphanum = true := by
  decide

theorem isUpper_toUpper :
    ∀ n < 0x7F, (Char.ofNat n).isAlpha = true → (Char.ofNat n).toUpper.isUpper = true := by
  decide

theorem isAlphanum_toLower {c : Char} (h : c.isAlphanum = true) : c.toLower.isAlphanum = true := by
  have small : c.toNat < 0x7F := (isPrintable_of_isNameChar (.inl h)).2
  simpa using (isAlphanum_cases c.toNat small (by simpa using h)).1

theorem isAlphanum_toUpper {c : Char} (h : c.isAlphanum = true) : c.toUpper.isAlphanum = true := by
  have small : c.toNat < 0x7F := (isPrintable_of_isNameChar (.inl h)).2
  simpa using (isAlphanum_cases c.toNat small (by simpa using h)).2

theorem mem_of_mem_intercalate {α : Type} {separator : List α} {parts : List (List α)} {c : α}
    (mem : c ∈ separator.intercalate parts) : c ∈ separator ∨ ∃ part ∈ parts, c ∈ part := by
  induction parts with
  | nil => cases mem
  | cons first rest ih =>
    by_cases last : rest = []
    · subst last
      rw [List.intercalate_singleton] at mem
      exact .inr ⟨first, by simp, mem⟩
    · rw [List.intercalate_cons_of_ne_nil last] at mem
      simp only [List.mem_append] at mem
      rcases mem with (in_first | in_separator) | later
      · exact .inr ⟨first, by simp, in_first⟩
      · exact .inl in_separator
      · exact (ih later).imp id fun ⟨part, in_rest, inside⟩ => ⟨part, by simp [in_rest], inside⟩

section Spelling

variable {name : List Char} (h : ∀ c ∈ name, IsNameChar c)
include h

/-- The characters of a word are letters and digits. -/
theorem isAlphanum_of_mem_words {word : List (List Char)} (mem : word ∈ words name) {c : Char}
    (inside : c ∈ word.flatten) : c.isAlphanum = true := by
  have printable : ∀ c ∈ name, IsPrintable c := fun c mem => isPrintable_of_isNameChar (h c mem)
  obtain ⟨in_name, apart⟩ := mem_flatten_of_mem_words printable mem inside
  exact isAlphanum_of_isSeparator_eq_false (h c in_name) apart

theorem isPrintable_of_mem_words {word : List (List Char)} (mem : word ∈ words name) :
    ∀ c ∈ word.flatten, IsPrintable c :=
  fun _ inside => isPrintable_of_isNameChar (.inl (isAlphanum_of_mem_words h mem inside))

/-- The dashed spelling has letters, digits and hyphens only. -/
theorem isDashed_dashed : IsDashed (dashed name) := by
  intro c mem
  rcases mem_of_mem_intercalate mem with hyphen | ⟨lowered, in_list, inside⟩
  · exact .inr (List.mem_singleton.mp hyphen)
  · obtain ⟨word, in_words, rfl⟩ := List.mem_map.mp in_list
    rw [toLower_of_printable (isPrintable_of_mem_words h in_words)] at inside
    obtain ⟨d, in_word, rfl⟩ := List.mem_map.mp inside
    exact .inl (isAlphanum_toLower (isAlphanum_of_mem_words h in_words in_word))

theorem isAlphanum_of_mem_capitalize {word : List (List Char)} (mem : word ∈ words name) {c : Char}
    (inside : c ∈ capitalize word) : c.isAlphanum = true := by
  cases word with
  | nil => cases inside
  | cons first rest =>
    have printable := isPrintable_of_mem_words h mem
    have own : ∀ d ∈ (first :: rest).flatten, d.isAlphanum = true :=
      fun d => isAlphanum_of_mem_words h mem
    simp only [List.flatten_cons, List.mem_append] at printable own
    rw [capitalize, toUpper_of_printable fun d hd => printable d (.inl hd),
      toLower_of_printable fun d hd => printable d (.inr hd)] at inside
    rcases List.mem_append.mp inside with front | back
    · obtain ⟨d, in_first, rfl⟩ := List.mem_map.mp front
      exact isAlphanum_toUpper (own d (.inl in_first))
    · obtain ⟨d, in_rest, rfl⟩ := List.mem_map.mp back
      exact isAlphanum_toLower (own d (.inr in_rest))

theorem isAlphanum_of_mem_capitalized {c : Char} (mem : c ∈ capitalized name) :
    c.isAlphanum = true := by
  obtain ⟨word, in_words, inside⟩ := List.mem_flatMap.mp mem
  exact isAlphanum_of_mem_capitalize h in_words inside

end Spelling

/-- The capitalised spelling begins with the capital of a first letter. -/
theorem capitalized_cons {c : Char} {cs : List Char} (h : ∀ d ∈ c :: cs, IsNameChar d)
    (letter : c.isAlpha = true) : ∃ rest, capitalized (c :: cs) = c.toUpper :: rest := by
  have printable : ∀ d ∈ c :: cs, IsPrintable d := fun d mem => isPrintable_of_isNameChar (h d mem)
  have part : isSeparator [c] = false := by
    rw [← Bool.not_eq_true]
    intro separator
    simp only [isSeparator, Bool.or_eq_true, beq_iff_eq, List.cons.injEq, and_true] at separator
    rcases separator with (rfl | rfl) | rfl <;> revert letter <;> decide
  have first_word : ∃ more rest, words (c :: cs) = ([c] :: more) :: rest := by
    rw [words, graphemes_of_printable printable, List.map_cons, wordsFrom, part]
    simp only [Bool.false_eq_true, if_false]
    split
    · exact ⟨[], wordsFrom [] (cs.map fun c => [c]), rfl⟩
    · obtain ⟨more, rest, eq⟩ := wordsFrom_eq_cons [[c]] (cs.map fun c => [c])
      exact ⟨more, rest, eq⟩
  obtain ⟨more, rest, eq⟩ := first_word
  have upper : toUpper [c] = [c.toUpper] :=
    toUpper_of_printable fun d mem => printable d (by simp [List.mem_singleton.mp mem])
  exact ⟨toLower more.flatten ++ rest.flatMap capitalize, by
    rw [capitalized, eq, List.flatMap_cons, capitalize, upper]
    rfl⟩

theorem isNameChar_of_isComponentName {name : String} (h : IsComponentName name) :
    ∀ c ∈ name.toList, IsNameChar c := by
  obtain ⟨c, cs, eq, letter, rest⟩ := h
  rw [eq]
  intro d mem
  rcases List.mem_cons.mp mem with rfl | mem
  · exact .inl (by simp [Char.isAlphanum, letter])
  · exact (rest d mem).imp id .inl

theorem isNameChar_of_isModelName {name : String} (h : IsModelName name) :
    ∀ c ∈ name.toList, IsNameChar c := by
  obtain ⟨c, cs, eq, capital, rest⟩ := h
  rw [eq]
  intro d mem
  rcases List.mem_cons.mp mem with rfl | mem
  · exact .inl (by simp [Char.isAlphanum, isAlpha_of_isUpper capital])
  · exact (rest d mem).imp id .inr

/-- **The name in paths** has letters, digits and hyphens only. -/
theorem isDashed_kebabCase {name : String} (h : ∀ c ∈ name.toList, IsNameChar c) :
    IsDashed (kebabCase name).toList := by
  rw [kebabCase, String.toList_ofList]
  exact isDashed_dashed h

/-- **The name in code** has letters and digits only, with a capital in front. -/
theorem isCapitalized_pascalCase {name : String} (h : IsComponentName name) :
    IsCapitalized (pascalCase name).toList := by
  have chars := isNameChar_of_isComponentName h
  obtain ⟨c, cs, eq, letter, _⟩ := h
  rw [pascalCase, String.toList_ofList]
  rw [eq] at chars ⊢
  obtain ⟨rest, spelled⟩ := capitalized_cons chars letter
  have small : c.toNat < 0x7F := (isPrintable_of_isNameChar (chars c (by simp))).2
  refine ⟨c.toUpper, rest, spelled, ?_, fun d mem => .inl ?_⟩
  · simpa using isUpper_toUpper c.toNat small (by simpa using letter)
  · exact isAlphanum_of_mem_capitalized chars (by simp [spelled, mem])

end Naming

end ModelGrid
