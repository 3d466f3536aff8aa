import ModelGrid.Proofs.Naming

/-!
# Names that are spelled with dashes

The dashed spelling of a name of ASCII has the same words as the name, in lower case
(`words_dashed`), although the changes of case that parted the words are gone.  A dash has taken their
place, so what is to be shown is that the dashed spelling has no other border.  Within a word of the
name no letter and digit meet, whatever their case (`Adjoins`); that is kept in lower case, and without
upper case these are the only borders that are no separators.

The words are lists of clusters.  Cutting the dashed spelling into clusters has to give back those of
the words, which is why two clusters that make up a line end may not meet in a word either.

## Main definitions

* `Naming.Adjoins`: two clusters that may stand side by side in a word.
* `Naming.IsWord`: a word of a name in lower case.

## Main results

* `Naming.words_dashed`: the words of the dashed spelling.
* `Naming.kebabCase_kebabCase`, `Naming.pascalCase_kebabCase`: a name may be spelled with dashes
  beforehand.
-/

namespace ModelGrid.Naming

open Text

variable {g h name : List Char} {word gs : List (List Char)}

/-! ### Clusters in lower case -/

theorem isAscii_toLower {c : Char} (ascii : IsAscii c) :
    IsAscii c.toLower ∧ c.toLower.toLower = c.toLower := by
  refine ascii.of_forall ?_
  decide

theorem isCluster_toLower (cluster : IsCluster g) : IsCluster (toLower g) := by
  rcases cluster with ⟨c, ascii, rfl⟩ | rfl
  · exact .inl ⟨c.toLower, (isAscii_toLower ascii).1, toLower_of_isAscii (by simpa using ascii)⟩
  · exact .inr (by decide)

theorem isUpper_toLower (cluster : IsCluster g) : isUpper (toLower g) = false := by
  refine cluster.of_forall ?_ ?_ <;> decide

theorem isLower_toLower (cluster : IsCluster g) :
    isLower (toLower g) = (isLower g || isUpper g) := by
  refine cluster.of_forall ?_ ?_ <;> decide

theorem isDigit_toLower (cluster : IsCluster g) : isDigit (toLower g) = isDigit g := by
  refine cluster.of_forall ?_ ?_ <;> decide

theorem isSeparator_toLower (cluster : IsCluster g) : isSeparator (toLower g) = isSeparator g := by
  refine cluster.of_forall ?_ ?_ <;> decide

theorem toLower_eq_control (cluster : IsCluster g) :
    (toLower g = ['\r'] ↔ g = ['\r']) ∧ (toLower g = ['\n'] ↔ g = ['\n']) := by
  refine cluster.of_forall ?_ ?_ <;> decide

theorem toUpper_toLower (cluster : IsCluster g) : toUpper (toLower g) = toUpper g := by
  refine cluster.of_forall ?_ ?_ <;> decide

theorem toLower_toLower (ascii : ∀ c ∈ name, IsAscii c) : toLower (toLower name) = toLower name := by
  have lower_ascii : ∀ c ∈ name.map Char.toLower, IsAscii c :=
    List.forall_mem_map.mpr fun c mem => (isAscii_toLower (ascii c mem)).1
  rw [toLower_of_isAscii ascii, toLower_of_isAscii lower_ascii, List.map_map]
  exact List.map_congr_left fun c mem => (isAscii_toLower (ascii c mem)).2

/-- A text is brought into lower case cluster by cluster. -/
theorem toLower_flatten (clusters : ∀ g ∈ gs, IsCluster g) :
    toLower gs.flatten = (gs.map toLower).flatten := by
  induction gs with
  | nil => rfl
  | cons g gs ih =>
    obtain ⟨first, others⟩ := List.forall_mem_cons.mp clusters
    have ascii := isAscii_of_mem_flatten clusters
    rw [List.flatten_cons] at ascii
    rw [List.map_cons, List.flatten_cons, List.flatten_cons, ← ih others, toLower_of_isAscii ascii,
      toLower_of_isAscii first.isAscii, toLower_of_isAscii (isAscii_of_mem_flatten others),
      List.map_append]

/-! ### Words -/

/-- The two clusters may stand side by side in a word, in whichever case: they make up no line end,
and they are no letter and digit. -/
structure Adjoins (g h : List Char) : Prop where
  apart : Apart g h
  digit_letter : isDigit g = true → isLower h = false ∧ isUpper h = false
  letter_digit : isDigit h = true → isLower g = false ∧ isUpper g = false

/-- A cluster adjoins the next one if it ends no word. -/
theorem adjoins_of_endsWord {rest : List (List Char)} (apart : Apart g h)
    (goes_on : endsWord g (h :: rest) = false) : Adjoins g h := by
  simp only [endsWord, Bool.or_eq_false_iff, Bool.and_eq_false_iff] at goes_on
  obtain ⟨⟨⟨⟨⟨-, upper_digit⟩, digit_upper⟩, digit_lower⟩, lower_digit⟩, -⟩ := goes_on
  refine ⟨apart, fun digit => ?_, fun digit => ?_⟩
  · simp_all
  · simp_all

/-- Without upper case, a word ends nowhere else than at a letter and a digit. -/
theorem endsWord_of_adjoins {rest : List (List Char)} (adjoins : Adjoins g h)
    (no_capital : isUpper h = false) : endsWord g (h :: rest) = false := by
  have digit_letter := adjoins.digit_letter
  have letter_digit := adjoins.letter_digit
  cases digit_g : isDigit g <;> cases digit_h : isDigit h <;> simp_all [endsWord]

/-- A dash may follow on anything, as far as words are concerned. -/
theorem adjoins_dash (g : List Char) : Adjoins g ['-'] :=
  ⟨fun both => absurd both.2 (by decide), fun _ => by decide, fun digit => absurd digit (by decide)⟩

theorem Adjoins.toLower (adjoins : Adjoins g h) (hg : IsCluster g) (hh : IsCluster h) :
    Adjoins (toLower g) (toLower h) where
  apart both :=
    adjoins.apart ⟨(toLower_eq_control hg).1.mp both.1, (toLower_eq_control hh).2.mp both.2⟩
  digit_letter digit := by
    rw [isDigit_toLower hg] at digit
    rw [isLower_toLower hh, isUpper_toLower hh, Bool.or_eq_false_iff]
    exact ⟨adjoins.digit_letter digit, rfl⟩
  letter_digit digit := by
    rw [isDigit_toLower hh] at digit
    rw [isLower_toLower hg, isUpper_toLower hg, Bool.or_eq_false_iff]
    exact ⟨adjoins.letter_digit digit, rfl⟩

/-- A word of clusters of ASCII. -/
structure IsWord (word : List (List Char)) : Prop where
  isCluster : ∀ g ∈ word, IsCluster g
  part : ∀ g ∈ word, isSeparator g = false
  adjoins : word.IsChain Adjoins

theorem isWord_nil : IsWord [] := ⟨by simp, by simp, .nil⟩

/-- A word goes on with a cluster that adjoins its last one. -/
theorem IsWord.concat (begun : IsWord word) (cluster : IsCluster g) (part : isSeparator g = false)
    (joint : ∀ last ∈ word.getLast?, Adjoins last g) : IsWord (word ++ [g]) where
  isCluster := List.forall_mem_append.mpr ⟨begun.isCluster, by simpa using cluster⟩
  part := List.forall_mem_append.mpr ⟨begun.part, by simpa using part⟩
  adjoins := List.isChain_append.mpr ⟨begun.adjoins, .singleton g, by simpa using joint⟩

/-- **The pieces of a name are words.**  The induction carries that what is pending is a word itself
and that the next cluster may go on with it, if it is no separator. -/
theorem isWord_of_mem_wordsFrom {pending : List (List Char)} (begun : IsWord pending.reverse)
    (clusters : ∀ g ∈ gs, IsCluster g) (apart : gs.IsChain Apart)
    (joint : ∀ last ∈ pending.head?, ∀ next ∈ gs.head?, Adjoins last next) :
    ∀ word ∈ wordsFrom pending gs, IsWord word := by
  induction gs generalizing pending with
  | nil => simpa [wordsFrom] using begun
  | cons g rest ih =>
    obtain ⟨cluster, others⟩ := List.forall_mem_cons.mp clusters
    have afresh : ∀ word ∈ wordsFrom [] rest, IsWord word :=
      ih isWord_nil others apart.tail (by simp)
    rw [wordsFrom]
    split
    next => exact List.forall_mem_cons.mpr ⟨begun, afresh⟩
    next part =>
      have longer : IsWord (g :: pending).reverse := by
        rw [List.reverse_cons]
        exact begun.concat cluster (by simpa using part) (by simpa using joint)
      split
      next => exact List.forall_mem_cons.mpr ⟨longer, afresh⟩
      next goes_on =>
        refine ih longer others apart.tail fun last first next first_rest => ?_
        obtain rfl : g = last := by simpa using first
        obtain ⟨later, rfl⟩ := List.head?_eq_some_iff.mp first_rest
        exact adjoins_of_endsWord (List.isChain_cons_cons.mp apart).1 (by simpa using goes_on)

theorem isWord_of_mem_words (ascii : ∀ c ∈ name, IsAscii c) : ∀ word ∈ words name, IsWord word := by
  rw [words, graphemes_of_isAscii ascii]
  exact isWord_of_mem_wordsFrom isWord_nil (isCluster_of_mem_lineClusters ascii)
    (isChain_apart_lineClusters name) (by simp)

theorem words_ne_nil (name : List Char) : words name ≠ [] := by
  obtain ⟨more, rest, eq⟩ := wordsFrom_eq_cons [] (graphemes name)
  rw [words, eq]
  exact List.cons_ne_nil _ _

/-- A word in lower case. -/
structure IsLowerWord (word : List (List Char)) : Prop extends IsWord word where
  no_capital : ∀ g ∈ word, isUpper g = false

theorem IsWord.toLower (whole : IsWord word) : IsLowerWord (word.map toLower) where
  isCluster := List.forall_mem_map.mpr fun g mem => isCluster_toLower (whole.isCluster g mem)
  part := List.forall_mem_map.mpr fun g mem => by
    rw [isSeparator_toLower (whole.isCluster g mem), whole.part g mem]
  adjoins := by
    rw [List.isChain_map]
    exact whole.adjoins.imp_of_mem_imp fun g h g_mem h_mem adjoins =>
      adjoins.toLower (whole.isCluster g g_mem) (whole.isCluster h h_mem)
  no_capital := List.forall_mem_map.mpr fun g mem => isUpper_toLower (whole.isCluster g mem)

/-! ### Words with dashes between them -/

/-- A word in lower case is taken as a whole, up to a dash or the end. -/
theorem wordsFrom_append {pending after : List (List Char)} (lower : IsLowerWord word)
    (dash : ∀ next ∈ after.head?, next = ['-']) :
    wordsFrom pending (word ++ after) = wordsFrom (word.reverse ++ pending) after := by
  induction word generalizing pending with
  | nil => rfl
  | cons g word ih =>
    have tail : IsLowerWord word :=
      ⟨⟨fun h mem => lower.isCluster h (.tail g mem), fun h mem => lower.part h (.tail g mem),
        lower.adjoins.tail⟩, fun h mem => lower.no_capital h (.tail g mem)⟩
    have goes_on : endsWord g (word ++ after) = false := by
      cases word with
      | nil =>
        cases after with
        | nil => rfl
        | cons next after =>
          obtain rfl : next = ['-'] := by simpa using dash
          exact endsWord_of_adjoins (adjoins_dash g) (by decide)
      | cons h word =>
        exact endsWord_of_adjoins (List.isChain_cons_cons.mp lower.adjoins).1
          (lower.no_capital h (by simp))
    rw [List.cons_append, wordsFrom, lower.part g List.mem_cons_self, goes_on]
    simp [ih tail]

/-- **Words with dashes between them are parted at the dashes.** -/
theorem wordsFrom_intercalate {parts : List (List (List Char))} (some_word : parts ≠ [])
    (lower : ∀ word ∈ parts, IsLowerWord word) :
    wordsFrom [] ([['-']].intercalate parts) = parts := by
  induction parts with
  | nil => exact absurd rfl some_word
  | cons word rest ih =>
    obtain ⟨first, others⟩ := List.forall_mem_cons.mp lower
    by_cases last : rest = []
    · subst last
      rw [List.intercalate_singleton]
      have whole : wordsFrom [] (word ++ []) = wordsFrom (word.reverse ++ []) [] :=
        wordsFrom_append first (by simp)
      simpa [wordsFrom] using whole
    · rw [List.intercalate_cons_of_ne_nil last, List.append_assoc,
        wordsFrom_append first (by simp)]
      simpa [wordsFrom, isSeparator] using ih last others

/-- The clusters of words with dashes between them do not make up line ends. -/
theorem isChain_apart_intercalate {parts : List (List (List Char))}
    (whole : ∀ word ∈ parts, IsWord word) : ([['-']].intercalate parts).IsChain Apart := by
  induction parts with
  | nil => exact .nil
  | cons word rest ih =>
    obtain ⟨first, others⟩ := List.forall_mem_cons.mp whole
    have apart : word.IsChain Apart := first.adjoins.imp fun _ _ adjoins => adjoins.apart
    by_cases last : rest = []
    · subst last
      rwa [List.intercalate_singleton]
    · rw [List.intercalate_cons_of_ne_nil last, List.append_assoc, List.isChain_append]
      refine ⟨apart, List.isChain_cons.mpr ⟨fun _ _ both => absurd both.1 (by decide), ih others⟩, ?_⟩
      rintro g - h dash
      obtain rfl : ['-'] = h := by simpa using dash
      exact (adjoins_dash g).apart

theorem isCluster_of_mem_intercalate {parts : List (List (List Char))}
    (whole : ∀ word ∈ parts, IsWord word) : ∀ g ∈ [['-']].intercalate parts, IsCluster g := by
  intro g mem
  rcases mem_of_mem_intercalate mem with dash | ⟨word, in_parts, inside⟩
  · exact .inl ⟨'-', by decide, List.mem_singleton.mp dash⟩
  · exact (whole word in_parts).isCluster g inside

theorem intercalate_map_flatten (parts : List (List (List Char))) :
    ['-'].intercalate (parts.map List.flatten) = ([['-']].intercalate parts).flatten := by
  induction parts with
  | nil => rfl
  | cons word rest ih =>
    by_cases last : rest = []
    · subst last
      simp
    · rw [List.map_cons, List.intercalate_cons_of_ne_nil (by simpa using last),
        List.intercalate_cons_of_ne_nil last, ih]
      simp

/-- A word is capitalised the same in lower case. -/
theorem capitalize_toLower (clusters : ∀ g ∈ word, IsCluster g) :
    capitalize (word.map toLower) = capitalize word := by
  cases word with
  | nil => rfl
  | cons g word =>
    obtain ⟨first, others⟩ := List.forall_mem_cons.mp clusters
    rw [List.map_cons, capitalize, capitalize, toUpper_toLower first, ← toLower_flatten others,
      toLower_toLower (isAscii_of_mem_flatten others)]

section Ascii

variable (ascii : ∀ c ∈ name, IsAscii c)
include ascii

/-- **The dashed spelling has the words of the name in lower case.** -/
theorem words_dashed : words (dashed name) = (words name).map (List.map toLower) := by
  have whole := isWord_of_mem_words ascii
  have lower : ∀ word ∈ (words name).map (List.map toLower), IsLowerWord word :=
    List.forall_mem_map.mpr fun word mem => (whole word mem).toLower
  have spelled : dashed name = ([['-']].intercalate ((words name).map (List.map toLower))).flatten := by
    rw [dashed, ← intercalate_map_flatten, List.map_map]
    refine congrArg _ (List.map_congr_left fun word mem => ?_)
    exact toLower_flatten (whole word mem).isCluster
  rw [words, spelled, graphemes_flatten
    (isCluster_of_mem_intercalate fun word mem => (lower word mem).toIsWord)
    (isChain_apart_intercalate fun word mem => (lower word mem).toIsWord)]
  exact wordsFrom_intercalate (by simpa using words_ne_nil name) lower

theorem dashed_dashed : dashed (dashed name) = dashed name := by
  have whole := isWord_of_mem_words ascii
  rw [dashed, words_dashed ascii, dashed, List.map_map]
  refine congrArg _ (List.map_congr_left fun word mem => ?_)
  have clusters := (whole word mem).isCluster
  rw [Function.comp_apply, ← toLower_flatten clusters,
    toLower_toLower (isAscii_of_mem_flatten clusters)]

theorem capitalized_dashed : capitalized (dashed name) = capitalized name := by
  have whole := isWord_of_mem_words ascii
  rw [capitalized, words_dashed ascii, capitalized, List.flatMap_map]
  exact List.flatMap_congr fun word mem => capitalize_toLower (whole word mem).isCluster

end Ascii

section Spelling

variable {name : String} (ascii : ∀ c ∈ name.toList, IsAscii c)
include ascii

/-- **The dashed spelling** of the dashed spelling is itself. -/
theorem kebabCase_kebabCase : kebabCase (kebabCase name) = kebabCase name := by
  rw [kebabCase, kebabCase, String.toList_ofList, dashed_dashed ascii]

/-- **The capitalised spelling** is that of the dashed spelling. -/
theorem pascalCase_kebabCase : pascalCase (kebabCase name) = pascalCase name := by
  rw [pascalCase, kebabCase, String.toList_ofList, capitalized_dashed ascii, pascalCase]

end Spelling

end ModelGrid.Naming
