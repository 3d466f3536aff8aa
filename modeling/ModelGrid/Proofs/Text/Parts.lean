import ModelGrid.Text.Blank
import ModelGrid.Text.Case
import ModelGrid.Text.Search
import Mathlib.Data.List.Basic

/-!
# Parts, stretches and words of texts

What the searches of `Text` find, in the terms of lists: a part at the front is a `<+:`, a part
anywhere a `<:+:`, and whatever trims or erases leaves a `Sublist`.  The last section says what
letter case does to blanks.

## Main results

* `Text.startsWith_iff`, `Text.hasPart_iff`: the two searches decide `<+:` and `<:+:`.
* `Text.not_mem_of_mem_splitOn`: no stretch holds the separator.
* `Text.isWord_of_mem_words`: a word is not empty and has no blank.
* `Text.not_isBlank_lowerForm`: lower case makes no blank of another character.
-/

namespace ModelGrid.Text

/-! ### Parts -/

theorem dropPart?_eq_some {part cs rest : List Char} :
    dropPart? part cs = some rest ↔ cs = part ++ rest := by
  induction part generalizing cs with
  | nil => simp [dropPart?]
  | cons p ps ih =>
    cases cs with
    | nil => simp [dropPart?]
    | cons c cs =>
      rw [dropPart?]
      by_cases same : p = c
      · simp [same, ih]
      · simp [same, Ne.symm same]

theorem startsWith_iff {part cs : List Char} : startsWith part cs = true ↔ part <+: cs := by
  rw [startsWith, Option.isSome_iff_exists]
  constructor
  · rintro ⟨rest, found⟩
    exact ⟨rest, (dropPart?_eq_some.mp found).symm⟩
  · rintro ⟨rest, rfl⟩
    exact ⟨rest, dropPart?_eq_some.mpr rfl⟩

theorem of_afterFirst?_eq_some {part cs rest : List Char} (h : afterFirst? part cs = some rest) :
    part ++ rest <:+ cs := by
  induction cs with
  | nil =>
    have whole : part ++ rest = [] := (dropPart?_eq_some.mp h).symm
    exact whole ▸ List.suffix_rfl
  | cons c cs ih =>
    rw [afterFirst?] at h
    split at h
    next found =>
      cases h
      have whole : part ++ rest = c :: cs := (dropPart?_eq_some.mp found).symm
      exact whole ▸ List.suffix_rfl
    next => exact (ih h).trans (List.suffix_cons c cs)

theorem of_beforeLast?_eq_some {part cs before : List Char} (h : beforeLast? part cs = some before) :
    before <+: cs := by
  induction cs generalizing before with
  | nil =>
    obtain ⟨_, _, rfl⟩ := Option.map_eq_some_iff.mp h
    exact List.nil_prefix
  | cons c cs ih =>
    rw [beforeLast?] at h
    split at h
    next found =>
      cases h
      exact List.prefix_cons_inj c |>.mpr (ih found)
    next =>
      obtain ⟨_, _, rfl⟩ := Option.map_eq_some_iff.mp h
      exact List.nil_prefix

theorem hasPart_iff {part cs : List Char} : hasPart part cs = true ↔ part <:+: cs := by
  rw [hasPart, Option.isSome_iff_exists]
  constructor
  · rintro ⟨rest, found⟩
    exact (List.prefix_append part rest).isInfix.trans (of_afterFirst?_eq_some found).isInfix
  · intro infixed
    induction cs with
    | nil => exact ⟨[], by rw [List.infix_nil.mp infixed]; rfl⟩
    | cons c cs ih =>
      rw [afterFirst?]
      cases found : dropPart? part (c :: cs) with
      | some rest => exact ⟨rest, rfl⟩
      | none =>
        rcases List.infix_cons_iff.mp infixed with front | later
        · obtain ⟨rest, eq⟩ := front
          rw [dropPart?_eq_some.mpr eq.symm] at found
          cases found
        · exact ih later

theorem eraseFirst_sublist (part cs : List Char) : (eraseFirst part cs).Sublist cs := by
  induction cs with
  | nil => exact List.Sublist.refl []
  | cons c cs ih =>
    rw [eraseFirst]
    split
    next rest found =>
      rw [dropPart?_eq_some.mp found]
      exact List.sublist_append_right part rest
    next => exact ih.cons_cons c

/-! ### Trimming -/

theorem trimRight_sublist (cs : List Char) : (trimRight cs).Sublist cs := by
  induction cs with
  | nil => exact List.Sublist.refl []
  | cons c cs ih =>
    rw [trimRight]
    split
    next =>
      split
      · exact List.nil_sublist _
      · exact (List.nil_sublist cs).cons_cons c
    next => exact ih.cons_cons c

theorem trim_sublist (cs : List Char) : (trim cs).Sublist cs :=
  (trimRight_sublist _).trans (List.dropWhile_sublist isBlank)

/-! ### Stretches -/

theorem not_mem_of_mem_splitOn {separator : Char} {cs stretch : List Char}
    (h : stretch ∈ splitOn separator cs) : separator ∉ stretch := by
  induction cs generalizing stretch with
  | nil =>
    rw [splitOn, List.mem_singleton] at h
    simp [h]
  | cons c cs ih =>
    rw [splitOn] at h
    split at h
    next =>
      rcases List.mem_cons.mp h with rfl | later
      · exact List.not_mem_nil
      · exact ih later
    next other =>
      have ne : separator ≠ c := by
        rintro rfl
        simp at other
      split at h
      next =>
        rw [List.mem_singleton.mp h]
        simpa using ne
      next first rest split_eq =>
        rcases List.mem_cons.mp h with rfl | later
        · have inner : separator ∉ first := ih (by simp [split_eq])
          simp [ne, inner]
        · exact ih (by simp [split_eq, later])

/-! ### Words -/

/-- A run of characters that are not blank. -/
def IsWord (w : List Char) : Prop :=
  w ≠ [] ∧ ∀ c ∈ w, isBlank c = false

theorem isWord_reverse {cs : List Char} (ne : ¬ cs.isEmpty = true)
    (clean : ∀ c ∈ cs, isBlank c = false) : IsWord cs.reverse :=
  ⟨by simpa using ne, by simpa using clean⟩

theorem isWord_of_mem_wordsFrom {pending cs w : List Char}
    (clean : ∀ c ∈ pending, isBlank c = false) (h : w ∈ wordsFrom pending cs) : IsWord w := by
  induction cs generalizing pending with
  | nil =>
    rw [wordsFrom] at h
    split at h
    · cases h
    next ne => exact List.mem_singleton.mp h ▸ isWord_reverse ne clean
  | cons c cs ih =>
    rw [wordsFrom] at h
    have none_begun : ∀ d ∈ ([] : List Char), isBlank d = false := by simp
    split at h
    next =>
      split at h
      · exact ih none_begun h
      next ne =>
        rcases List.mem_cons.mp h with rfl | later
        · exact isWord_reverse ne clean
        · exact ih none_begun later
    next solid => exact ih (List.forall_mem_cons.mpr ⟨by simpa using solid, clean⟩) h

/-- A word is not empty and has no blank. -/
theorem isWord_of_mem_words {cs w : List Char} (h : w ∈ words cs) : IsWord w :=
  isWord_of_mem_wordsFrom (by simp) h

/-! ### Letter case and blanks -/

/-- The numbers of the blanks. -/
def blankNumbers : List Nat :=
  List.range' 9 5 ++ [0x20, 0x85, 0xA0, 0x1680] ++ List.range' 0x2000 11 ++
    [0x2028, 0x2029, 0x202F, 0x205F, 0x3000]

theorem mem_blankNumbers_of_isBlank {c : Char} (h : isBlank c = true) :
    c.toNat ∈ blankNumbers := by
  simp only [isBlank, Bool.or_eq_true, Bool.and_eq_true, decide_eq_true_eq, beq_iff_eq] at h
  simp only [blankNumbers, List.mem_append, List.mem_range'_1, List.mem_cons, List.not_mem_nil,
    Char.toNat]
  omega

/-- No range of lower case forms reaches a blank. -/
theorem lower_ranges_miss_blanks :
    ∀ r ∈ CaseTable.lower, ∀ n ∈ blankNumbers, n < r.target ∨ r.target + (r.last - r.first) < n := by
  decide +kernel

theorem lower_expansions_miss_blanks :
    ∀ entry ∈ CaseTable.lowerExpansions, ∀ n ∈ entry.2, isBlank (Char.ofNat n) = false := by
  decide

theorem not_isBlank_ofNat {n : Nat} (h : n ∉ blankNumbers) : isBlank (Char.ofNat n) = false := by
  rw [← Bool.not_eq_true]
  intro blank
  have mem := mem_blankNumbers_of_isBlank blank
  by_cases valid : n.isValidChar
  · rw [Char.ofNat, dif_pos valid] at mem
    exact h mem
  · rw [Char.ofNat, dif_neg valid] at mem
    revert mem
    decide

theorem not_isBlank_formIn {ranges : List CaseTable.CaseRange} {n : Nat} {image : Char}
    (miss : ∀ r ∈ ranges, ∀ n ∈ blankNumbers, n < r.target ∨ r.target + (r.last - r.first) < n)
    (h : formIn n ranges = some image) : isBlank image = false := by
  induction ranges with
  | nil => cases h
  | cons r rest ih =>
    rw [formIn] at h
    split at h
    next inside =>
      cases h
      simp only [Bool.and_eq_true, decide_eq_true_eq] at inside
      refine not_isBlank_ofNat fun mem => ?_
      have := miss r (by simp) _ mem
      omega
    next => exact ih (fun r' mem => miss r' (by simp [mem])) h

theorem not_isBlank_toLower :
    ∀ n < 0x80, isBlank (Char.ofNat n) = false → isBlank (Char.ofNat n).toLower = false := by
  decide

/-- **Lower case makes no blank** of a character that is none. -/
theorem not_isBlank_lowerForm {c d : Char} (solid : isBlank c = false) (h : d ∈ lowerForm c) :
    isBlank d = false := by
  rw [lowerForm] at h
  split at h
  next ascii =>
    rw [List.mem_singleton.mp h, ← Char.ofNat_toNat c]
    exact not_isBlank_toLower c.toNat ascii (by rwa [Char.ofNat_toNat])
  next =>
    rw [form] at h
    split at h
    next image found =>
      rw [List.mem_singleton.mp h]
      exact not_isBlank_formIn lower_ranges_miss_blanks found
    next =>
      split at h
      next image found =>
        obtain ⟨n, mem, rfl⟩ := List.mem_map.mp h
        exact lower_expansions_miss_blanks _ (List.mem_of_find?_eq_some found) n mem
      next => rw [List.mem_singleton.mp h]; exact solid

end ModelGrid.Text
