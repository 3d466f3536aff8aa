import ModelGrid.Proofs.Naming
import ModelGrid.Proofs.Text.Parts
import Mathlib.Data.List.Basic

/-!
# Texts without braces

Letter case makes no brace of another character, whatever the script it is of, so that both spellings
of a name without braces have none either.  The same holds of clusters and words: they are made of the
characters of the name.

## Main definitions

* `Text.IsBrace`, `Braceless`: the two braces, and a text that has none.

## Main results

* `Braceless.kebabCase`, `Braceless.pascalCase`: the two spellings of a name.
-/

namespace ModelGrid

namespace Text

open CaseTable

/-- An opening or a closing brace. -/
def IsBrace (c : Char) : Prop := c = '\x7b' ∨ c = '\x7d'

instance (c : Char) : Decidable (IsBrace c) :=
  inferInstanceAs (Decidable (c = '\x7b' ∨ c = '\x7d'))

/-! ### Letter case -/

theorem not_isBrace_ofNat {n : Nat} (opening : n ≠ 0x7B) (closing : n ≠ 0x7D) :
    ¬ IsBrace (Char.ofNat n) := by
  intro brace
  have number : (Char.ofNat n).toNat = 0x7B ∨ (Char.ofNat n).toNat = 0x7D :=
    brace.imp (fun same => by rw [same]; rfl) fun same => by rw [same]; rfl
  by_cases valid : n.isValidChar
  · rw [Char.ofNat, dif_pos valid] at number
    exact number.elim opening closing
  · rw [Char.ofNat, dif_neg valid] at number
    revert number
    decide

/-- No character of the range has a brace for its form. -/
def MissesBraces (r : CaseRange) : Prop :=
  r.target + (r.last - r.first) < 0x7B ∨ 0x7D < r.target

instance (r : CaseRange) : Decidable (MissesBraces r) :=
  inferInstanceAs (Decidable (_ < _ ∨ _ < _))

theorem lower_misses_braces : ∀ r ∈ lower, MissesBraces r := by decide +kernel

theorem upper_misses_braces : ∀ r ∈ upper, MissesBraces r := by decide +kernel

theorem lowerExpansions_miss_braces :
    ∀ entry ∈ lowerExpansions, ∀ n ∈ entry.2, n ≠ 0x7B ∧ n ≠ 0x7D := by decide +kernel

theorem upperExpansions_miss_braces :
    ∀ entry ∈ upperExpansions, ∀ n ∈ entry.2, n ≠ 0x7B ∧ n ≠ 0x7D := by decide +kernel

theorem not_isBrace_formIn {ranges : List CaseRange} {n : Nat} {image : Char}
    (miss : ∀ r ∈ ranges, MissesBraces r) (found : formIn n ranges = some image) :
    ¬ IsBrace image := by
  induction ranges with
  | nil => cases found
  | cons r rest ih =>
    rw [formIn] at found
    split at found
    next inside =>
      cases found
      simp only [Bool.and_eq_true, decide_eq_true_eq] at inside
      have miss := miss r List.mem_cons_self
      rw [MissesBraces] at miss
      exact not_isBrace_ofNat (by omega) (by omega)
    next => exact ih (fun r' mem => miss r' (List.mem_cons_of_mem r mem)) found

theorem not_isBrace_form {ranges : List CaseRange} {expansions : List (Nat × List Nat)} {c d : Char}
    (miss : ∀ r ∈ ranges, MissesBraces r)
    (expansions_miss : ∀ entry ∈ expansions, ∀ n ∈ entry.2, n ≠ 0x7B ∧ n ≠ 0x7D)
    (plain : ¬ IsBrace c) (mem : d ∈ form ranges expansions c) : ¬ IsBrace d := by
  rw [form] at mem
  split at mem
  next image found =>
    rw [List.mem_singleton.mp mem]
    exact not_isBrace_formIn miss found
  next =>
    split at mem
    next image found =>
      obtain ⟨n, n_mem, rfl⟩ := List.mem_map.mp mem
      obtain ⟨opening, closing⟩ := expansions_miss _ (List.mem_of_find?_eq_some found) n n_mem
      exact not_isBrace_ofNat opening closing
    next =>
      rw [List.mem_singleton.mp mem]
      exact plain

theorem not_isBrace_ascii :
    ∀ n < 0x80, ¬ IsBrace (Char.ofNat n) →
      ¬ IsBrace (Char.ofNat n).toLower ∧ ¬ IsBrace (Char.ofNat n).toUpper := by
  decide +kernel

variable {c d : Char}

theorem not_isBrace_upperForm (plain : ¬ IsBrace c) (mem : d ∈ upperForm c) : ¬ IsBrace d := by
  rw [upperForm] at mem
  split at mem
  next ascii =>
    rw [List.mem_singleton.mp mem, ← Char.ofNat_toNat c]
    exact (not_isBrace_ascii c.toNat ascii (by rwa [Char.ofNat_toNat])).2
  next => exact not_isBrace_form upper_misses_braces upperExpansions_miss_braces plain mem

theorem not_isBrace_lowerForm (plain : ¬ IsBrace c) (mem : d ∈ lowerForm c) : ¬ IsBrace d := by
  rw [lowerForm] at mem
  split at mem
  next ascii =>
    rw [List.mem_singleton.mp mem, ← Char.ofNat_toNat c]
    exact (not_isBrace_ascii c.toNat ascii (by rwa [Char.ofNat_toNat])).1
  next => exact not_isBrace_form lower_misses_braces lowerExpansions_miss_braces plain mem

variable {cs : List Char}

theorem not_isBrace_toUpper (plain : ∀ c ∈ cs, ¬ IsBrace c) : ∀ d ∈ toUpper cs, ¬ IsBrace d := by
  intro d mem
  obtain ⟨c, c_mem, image⟩ := List.mem_flatMap.mp mem
  exact not_isBrace_upperForm (plain c c_mem) image

theorem not_isBrace_lowerFrom {afterCased : Bool} (plain : ∀ c ∈ cs, ¬ IsBrace c) :
    ∀ d ∈ lowerFrom afterCased cs, ¬ IsBrace d := by
  induction cs generalizing afterCased with
  | nil => simp [lowerFrom]
  | cons c cs ih =>
    intro d mem
    rw [lowerFrom] at mem
    rcases List.mem_append.mp mem with image | later
    · -- a sigma has two forms, by what stands around it
      split at image
      next =>
        split at image <;> rw [List.mem_singleton.mp image] <;> decide
      next => exact not_isBrace_lowerForm (plain c List.mem_cons_self) image
    · exact ih (fun c mem => plain c (List.mem_cons_of_mem _ mem)) d later

/-! ### Clusters -/

theorem mem_of_mem_graphemesFrom {s : GraphemeState} {pending g : List Char}
    (mem : g ∈ graphemesFrom s pending cs) (inside : c ∈ g) : c ∈ pending ∨ c ∈ cs := by
  induction cs generalizing s pending with
  | nil =>
    rw [graphemesFrom, List.mem_singleton] at mem
    exact .inl (by simpa [mem] using inside)
  | cons first rest ih =>
    rw [graphemesFrom] at mem
    split at mem
    next =>
      rcases ih mem with front | back
      · rcases List.mem_cons.mp front with rfl | front
        · exact .inr List.mem_cons_self
        · exact .inl front
      · exact .inr (List.mem_cons_of_mem first back)
    next =>
      rcases List.mem_cons.mp mem with rfl | mem
      · exact .inl (List.mem_reverse.mp inside)
      · rcases ih mem with front | back
        · rw [List.mem_singleton.mp front]
          exact .inr List.mem_cons_self
        · exact .inr (List.mem_cons_of_mem first back)

/-- The clusters of a text are made of its characters. -/
theorem mem_of_mem_graphemes {g : List Char} (mem : g ∈ graphemes cs) (inside : c ∈ g) : c ∈ cs := by
  cases cs with
  | nil => cases mem
  | cons first rest =>
    rcases mem_of_mem_graphemesFrom mem inside with front | back
    · rw [List.mem_singleton.mp front]
      exact List.mem_cons_self
    · exact List.mem_cons_of_mem first back

end Text

open Text

/-- The text has no brace. -/
def Braceless (text : String) : Prop := ∀ c ∈ text.toList, ¬ IsBrace c

instance (text : String) : Decidable (Braceless text) :=
  List.decidableBAll (fun c => ¬ IsBrace c) text.toList

namespace Naming

variable {name : List Char}

/-- The words of a name are made of its characters. -/
theorem mem_of_mem_words {word : List (List Char)} {c : Char} (mem : word ∈ words name)
    (inside : c ∈ word.flatten) : c ∈ name := by
  obtain ⟨g, in_word, in_g⟩ := List.mem_flatten.mp inside
  rcases mem_of_mem_wordsFrom mem in_word with none_there | ⟨in_name, -⟩
  · cases none_there
  · exact mem_of_mem_graphemes in_name in_g

end Naming

namespace Braceless

variable {name : String}

/-- **The name in paths** has no brace if the name has none. -/
theorem kebabCase (plain : Braceless name) : Braceless (kebabCase name) := by
  intro c mem
  rw [ModelGrid.kebabCase, String.toList_ofList] at mem
  rcases Naming.mem_of_mem_intercalate mem with dash | ⟨lowered, in_list, inside⟩
  · rw [List.mem_singleton.mp dash]
    decide
  · obtain ⟨word, in_words, rfl⟩ := List.mem_map.mp in_list
    exact not_isBrace_lowerFrom (fun d in_word => plain d (Naming.mem_of_mem_words in_words in_word))
      c inside

/-- **The name in code** has no brace if the name has none. -/
theorem pascalCase (plain : Braceless name) : Braceless (pascalCase name) := by
  intro c mem
  rw [ModelGrid.pascalCase, String.toList_ofList] at mem
  obtain ⟨word, in_words, inside⟩ := List.mem_flatMap.mp mem
  have own : ∀ d ∈ word.flatten, ¬ IsBrace d :=
    fun d in_word => plain d (Naming.mem_of_mem_words in_words in_word)
  cases word with
  | nil => cases inside
  | cons first rest =>
    simp only [List.flatten_cons, List.mem_append] at own
    rcases List.mem_append.mp inside with front | back
    · exact not_isBrace_toUpper (fun d in_first => own d (.inl in_first)) c front
    · exact not_isBrace_lowerFrom (fun d in_rest => own d (.inr in_rest)) c back

end Braceless

end ModelGrid
