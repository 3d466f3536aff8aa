import ModelGrid.Proofs.Model.Declaration
import ModelGrid.Proofs.Model.Refusal
import ModelGrid.Proofs.Text.Padding

/-!
# The titles of attributes

A line gives the argument of its column attribute as a title if a parenthesis closes the attribute right
behind the argument, and no quote with a parenthesis behind it comes later in the line.  A title is looked
for by its last closing: where there is one later in the line the title goes on up to it, and where a
comma follows the argument there is no closing (`readSource_columnText_ne`).

Only the end of the line is trimmed, and no closing is in what is trimmed, so that the title can be read
off the line as it is written (`Shown.of_trimRight`).

## Main definitions

* `columnText`: a line that begins with a column attribute.
* `closing`: what ends a title.
* `Shown`: the title that such a line gives.

## Main results

* `shown_titleOf_columnText`: the line has its title.
* `Shown.eq_argument_iff`: the lines that have their arguments as titles.
* `exists_shown_columnText`: the properties below the line have its title.
-/

namespace ModelGrid.Model

namespace Line

/-! ### Lines that begin with a column attribute -/

/-- What ends a title. -/
def closing : List Char := ['"', ')']

/-- A line that begins with a column attribute: its first argument, the character behind that, and
whatever follows. -/
def columnText (argument : List Char) (next : Char) (rest : List Char) : List Char :=
  ['[', 'C', 'o', 'l', 'u', 'm', 'n', '(', '"'] ++ (argument ++ '"' :: next :: rest)

/-- The title of the line. -/
inductive Shown (argument : List Char) (next : Char) (rest : List Char) : List Char → Prop
  /-- The title goes on to the last closing of the line. -/
  | overrun {front back : List Char} (eq : rest = front ++ (closing ++ back))
      (last : ¬ closing <:+: back) : Shown argument next rest (argument ++ '"' :: next :: front)
  /-- The title is the argument. -/
  | quoted (closed : next = ')') (none_later : ¬ closing <:+: rest) : Shown argument next rest argument
  /-- There is no title. -/
  | missing (continued : next ≠ ')') (none_later : ¬ closing <:+: rest) :
      Shown argument next rest untitled

variable {argument rest title : List Char} {next : Char}

/-- **A line has its argument as a title** if the attribute is closed behind the argument, and nothing
is closed in this way later in the line.  The one argument that may be continued is the text that stands
for a missing title. -/
theorem Shown.eq_argument_iff (shown : Shown argument next rest title) :
    title = argument ↔ ¬ closing <:+: rest ∧ (next = ')' ∨ argument = untitled) := by
  cases shown with
  | overrun eq =>
    have later : closing <:+: rest := ⟨_, _, by rw [eq, List.append_assoc]⟩
    simp [later]
  | quoted closed none_later => simp [closed, none_later]
  | missing continued none_later => simp [continued, none_later, eq_comm]

/-- A closing begins with a quote. -/
theorem isInfix_closing_cons {c : Char} (other : c ≠ '"') {cs : List Char} :
    closing <:+: c :: cs ↔ closing <:+: cs := by
  refine ⟨fun inside => (List.infix_cons_iff.mp inside).resolve_left fun begins => ?_,
    fun inside => inside.trans (List.suffix_cons c cs).isInfix⟩
  exact other (List.cons_prefix_cons.mp begins).1.symm

/-- A comma behind the argument is no closing. -/
theorem not_isInfix_closing (no_quote : '"' ∉ argument) (none_later : ¬ closing <:+: rest) :
    ¬ closing <:+: argument ++ '"' :: ',' :: rest := by
  have split : argument ++ '"' :: ',' :: rest = (argument ++ ['"']) ++ ',' :: rest := by simp
  rw [split]
  intro inside
  rcases Text.isInfix_of_isInfix_append_cons (by decide) inside with front | back
  · rcases List.infix_concat_iff.mp front with ⟨before, ends⟩ | within
    · have parted : (before ++ ['"']) ++ [')'] = argument ++ ['"'] := by simpa [closing] using ends
      have last := (List.append_inj' parted rfl).2
      revert last
      decide
    · exact no_quote (within.subset (by simp [closing]))
  · exact none_later back

/-- **The title of the line**, by its last closing. -/
theorem shown_titleOf_columnText (no_quote : '"' ∉ argument) (follows : next = ')' ∨ next = ',') :
    Shown argument next rest (titleOf (columnText argument next rest)) := by
  have opening : "Column(\"".toList = ['C', 'o', 'l', 'u', 'm', 'n', '(', '"'] := by simp
  have closes : "\")".toList = closing := by simp [closing]
  have behind : Text.afterFirst? "Column(\"".toList (columnText argument next rest) =
      some (argument ++ '"' :: next :: rest) := by
    rw [opening]
    simp [columnText, Text.afterFirst?, Text.dropPart?]
  have some_closing : closing ≠ [] := by decide
  have last_iff {back : List Char} : closing <:+: (closing ++ back).tail ↔ closing <:+: back :=
    isInfix_closing_cons (by decide)
  rw [titleOf, behind, Option.bind_some, closes]
  -- the last closing is behind the argument, or it is the one that the argument ends in
  by_cases later : closing <:+: rest
  · obtain ⟨front, back, rfl, last⟩ := Text.exists_last_of_isInfix some_closing later
    have parted : argument ++ '"' :: next :: (front ++ (closing ++ back)) =
        (argument ++ '"' :: next :: front) ++ (closing ++ back) := by simp
    rw [parted, Text.beforeLast?_of_last some_closing last]
    exact .overrun rfl (last_iff.not.mp last)
  · rcases follows with rfl | rfl
    · have parted : argument ++ '"' :: ')' :: rest = argument ++ (closing ++ rest) := rfl
      rw [parted, Text.beforeLast?_of_last some_closing (last_iff.not.mpr later)]
      exact .quoted rfl later
    · rw [Text.beforeLast?_eq_none (not_isInfix_closing no_quote later)]
      exact .missing (by decide) later

/-! ### The line as it is read -/

theorem isInfix_closing_trimRight {cs : List Char} :
    closing <:+: Text.trimRight cs ↔ closing <:+: cs := by
  obtain ⟨back, eq, -⟩ := Text.exists_blanks_trimRight cs
  have front : Text.trimRight cs <+: cs := ⟨back, eq.symm⟩
  have ends : closing = ['"'] ++ [')'] := rfl
  exact ⟨fun inside => inside.trans front.isInfix,
    ends ▸ Text.isInfix_trimRight (by decide)⟩

/-- What is trimmed is no part of a title. -/
theorem Shown.of_trimRight (shown : Shown argument next (Text.trimRight rest) title) :
    Shown argument next rest title := by
  cases shown with
  | @overrun front back eq last =>
    obtain ⟨blanks, whole, all⟩ := Text.exists_blanks_trimRight rest
    have spelled : rest = front ++ (closing ++ (back ++ blanks)) := by
      rw [whole, eq]
      simp
    refine .overrun spelled ?_
    rw [← isInfix_closing_trimRight, Text.trimRight_append_blanks all, isInfix_closing_trimRight]
    exact last
  | quoted closed none_later => exact .quoted closed (isInfix_closing_trimRight.not.mp none_later)
  | missing continued none_later =>
    exact .missing continued (isInfix_closing_trimRight.not.mp none_later)

theorem isPrefix_columnText_trimRight :
    columnText argument next (Text.trimRight rest) <+: columnText argument next rest := by
  obtain ⟨back, eq, -⟩ := Text.exists_blanks_trimRight rest
  refine ⟨back, ?_⟩
  conv_rhs => rw [eq]
  simp [columnText]

theorem trim_columnText (follows : next = ')' ∨ next = ',') :
    Text.trim (columnText argument next rest) = columnText argument next (Text.trimRight rest) := by
  have solid : Text.isBlank next = false := by rcases follows with rfl | rfl <;> decide
  have parted (rest : List Char) : columnText argument next rest =
      '[' :: (['C', 'o', 'l', 'u', 'm', 'n', '(', '"'] ++ (argument ++ ['"'])) ++ next :: rest := by
    simp [columnText]
  rw [parted, Text.trim, List.cons_append, Text.trimLeft_of_solid (by decide), ← List.cons_append,
    Text.trimRight_append_cons solid, ← parted]

/-- The line is an attribute. -/
theorem isAttribute_columnText
    (unmarked : ∀ word ∈ ignoredWords, ¬ word <:+: columnText argument next rest) :
    IsAttribute (columnText argument next rest) :=
  ⟨⟨by simp [columnText], by simp [columnText], by simp [columnText], unmarked⟩, ⟨_, rfl⟩⟩

end Line

open Line

/-! ### The properties below -/

/-- The title above is the title of the last attribute. -/
theorem TitleAbove.eq_titleOf {before between : List (List Char)} {marker title : List Char}
    (h : TitleAbove (before ++ marker :: between) title) (isAttribute : IsAttribute marker)
    (none_between : ∀ line ∈ between, ¬ IsAttribute line) : title = titleOf marker := by
  obtain ⟨before', marker', between', eq, isAttribute', none_between', rfl⟩ := h
  -- of two markers that are not the same the upper one has an attribute below it
  rcases List.append_eq_append_iff.mp eq with ⟨more, -, behind⟩ | ⟨more, -, behind⟩
  · cases more with
    | nil => rw [(List.cons.inj behind).1]
    | cons first later =>
      refine absurd isAttribute' (none_between marker' ?_)
      simp [(List.cons.inj behind).2]
  · cases more with
    | nil => rw [(List.cons.inj behind).1]
    | cons first later =>
      refine absurd isAttribute (none_between' marker ?_)
      simp [(List.cons.inj behind).2]

/-- A line that declares a property is one of those that are read. -/
theorem exists_declaredAt {source : String} {ps : List Property} (read : readSource source = .ok ps)
    {above below : List (List Char)} {line : List Char}
    (lines : normalizedLines source = above ++ line :: below) (isProperty : IsProperty line) :
    ∃ p ∈ ps, DeclaredAt (normalizedLines source) above.length p := by
  have no_title : ∀ title, none = some title → TitleAbove [] title := nofun
  have run := forall₂_declaredAt_of_readLines no_title read
  rw [List.nil_append, ← normalizedLines, List.length_nil] at run
  obtain ⟨as_many, declared⟩ := List.forall₂_iff_get.mp run
  have position : above.length ∈ (normalizedLines source).findIdxs (IsProperty ·) := by
    rw [List.mem_findIdxs_iff_exists_getElem_pos, lines]
    exact ⟨by simp, by simpa using isProperty⟩
  obtain ⟨k, within, eq⟩ := List.getElem_of_mem position
  have here := (declared k within (as_many ▸ within)).1
  rw [List.get_eq_getElem, eq] at here
  exact ⟨_, List.get_mem .., here⟩

/-- **The title of a column attribute**, and of the properties below it up to the next attribute: it is
the argument of the attribute if a parenthesis follows, and no quote with a parenthesis behind it comes
later in the line. -/
theorem exists_shown_columnText {indent argument rest : List Char} {next : Char}
    (blanks : ∀ b ∈ indent, Text.isBlank b = true) (no_quote : '"' ∉ argument)
    (follows : next = ')' ∨ next = ',')
    (unmarked : ∀ mark ∈ accessors ++ ignoredWords, ¬ mark <:+: columnText argument next rest) :
    ∃ title, Shown argument next rest title ∧
      (title = argument ↔ ¬ closing <:+: rest ∧ (next = ')' ∨ argument = untitled)) ∧
      ofText (normalize (indent ++ columnText argument next rest)) = .titled title ∧
      ∀ source ps before between property after, readSource source = .ok ps →
        Text.splitOn '\n' source.toList =
          before ++ (indent ++ columnText argument next rest) :: (between ++ property :: after) →
        (∀ line ∈ between, ¬ IsAttribute (normalize line)) → IsProperty (normalize property) →
        ∃ p ∈ ps, DeclaredAt (normalizedLines source) (before.length + 1 + between.length) p ∧
          p.title = String.ofList title := by
  let marker := columnText argument next (Text.trimRight rest)
  have normalized : normalize (indent ++ columnText argument next rest) = marker := by
    rw [normalize_append_of_blanks blanks,
      normalize_eq_trim fun accessor mem => unmarked accessor (by simp [mem]), trim_columnText follows]
  have shown : Shown argument next rest (titleOf marker) :=
    (shown_titleOf_columnText no_quote follows).of_trimRight
  have isAttribute : IsAttribute marker := isAttribute_columnText fun word mem inside =>
    unmarked word (by simp [mem]) (inside.trans isPrefix_columnText_trimRight.isInfix)
  refine ⟨titleOf marker, shown, shown.eq_argument_iff, ?_, ?_⟩
  · rw [normalized, ofText_of_isAttribute isAttribute]
  · intro source ps before between property after read lines none_between isProperty
    have above : normalizedLines source =
        (before.map normalize ++ marker :: between.map normalize) ++
          normalize property :: after.map normalize := by
      rw [normalizedLines, lines]
      simp [normalized]
    obtain ⟨p, mem, declared⟩ := exists_declaredAt read above isProperty
    have position : (before.map normalize ++ marker :: between.map normalize).length =
        before.length + 1 + between.length := by
      simp only [List.length_append, List.length_cons, List.length_map]
      omega
    have titled : p.title = String.ofList (titleOf marker) := by
      obtain ⟨_, _, title, _, _, hangs, _, given⟩ := declared
      rw [above, List.take_left] at hangs
      rw [given, hangs.eq_titleOf isAttribute (by simpa using none_between)]
    exact ⟨p, mem, position ▸ declared, titled⟩

/-- Another attribute follows on the line, and a blank line stands between it and the property. -/
theorem exists_shown_columnText_attributes :
    let argument := "Name, (m)".toList
    let rest := ", MaxLength(50)]\r".toList
    let source := "\t[Column(\"Name, (m)\"), MaxLength(50)]\r\n\r\npublic string Name \x7b get; set; \x7d"
    let ps : List Property := [⟨"name", .string, "Name, (m)"⟩]
    ofText (normalize ('\t' :: columnText argument ')' rest)) = .titled argument ∧
      readSource source = .ok ps ∧
      ∃ p ∈ ps, DeclaredAt (normalizedLines source) 2 p ∧ p.title = "Name, (m)" := by
  intro argument rest source ps
  have read : readSource source = .ok ps := by decide +kernel
  have lines : Text.splitOn '\n' source.toList = [] ++ (['\t'] ++ columnText argument ')' rest) ::
      ([['\r']] ++ "public string Name \x7b get; set; \x7d".toList :: []) := by decide +kernel
  have no_attribute : ∀ line ∈ [['\r']], ¬ IsAttribute (normalize line) := by
    intro line mem marker
    obtain rfl := List.mem_singleton.mp mem
    exact marker.1.1 (by decide)
  have isProperty : IsProperty (normalize "public string Name \x7b get; set; \x7d".toList) := by
    decide +kernel
  have blank : ∀ b ∈ ['\t'], Text.isBlank b = true := List.all_eq_true.mp (by decide)
  obtain ⟨title, -, argument_iff, titled, below⟩ :=
    @exists_shown_columnText ['\t'] argument rest ')' blank (by decide +kernel) (.inl rfl)
      (by decide +kernel)
  obtain rfl : title = argument := argument_iff.mpr ⟨by decide +kernel, .inl rfl⟩
  exact ⟨titled, read, below source ps [] [['\r']] _ [] read lines no_attribute isProperty⟩

/-- A later closing, in another attribute or in another argument, is taken for the one of the title, and
an argument with a comma behind it is not found. -/
theorem readSource_columnText_ne :
    let below := "\npublic string Name \x7b get; set; \x7d".toList
    let shared := columnText "Name".toList ')' "] [Display(\"Full name\")]".toList
    let typed := columnText "Name".toList ',' " TypeName = \"nvarchar(50)\")]".toList
    let ordered := columnText "Name".toList ',' " Order = 1)]".toList
    (∀ line ∈ [shared, typed, ordered], ∀ mark ∈ accessors ++ ignoredWords, ¬ mark <:+: line) ∧
      [shared, typed, ordered].map (fun line => readSource (String.ofList (line ++ below))) =
        ["Name\")] [Display(\"Full name", "Name\", TypeName = \"nvarchar(50)", "__not_found_"].map
          (fun title => .ok [⟨"name", .string, title⟩]) ∧
      ∀ line ∈ [shared, typed, ordered],
        readSource (String.ofList (line ++ below)) ≠ .ok [⟨"name", .string, "Name"⟩] := by
  intro below shared typed ordered
  have read : [shared, typed, ordered].map (fun line => readSource (String.ofList (line ++ below))) =
      ["Name\")] [Display(\"Full name", "Name\", TypeName = \"nvarchar(50)", "__not_found_"].map
        (fun title => .ok [⟨"name", .string, title⟩]) := by decide +kernel
  have other : ∀ result ∈ [shared, typed, ordered].map
      (fun line => readSource (String.ofList (line ++ below))),
      result ≠ .ok [⟨"name", .string, "Name"⟩] := by
    rw [read]
    decide +kernel
  exact ⟨by decide +kernel, read, fun line mem => other _ (List.mem_map_of_mem mem)⟩

end ModelGrid.Model
