import ModelGrid.Model.Reading
import ModelGrid.Proofs.Text.Parts
import Mathlib.Data.List.Basic
import Mathlib.Data.List.Forall2

/-!
# The properties of a source and their titles

`readLines` carries the title that is pending from line to line and stops at the first fault.  This
module says what it reads without that state: one property for each line that declares one, under
the title of the nearest attribute above.

The induction is over the lines still to come, with the lines already read in `above`.  What carries
it is that the pending title hangs over the end of `above` (`TitleAbove`): an attribute puts its own
there, every other line leaves it where it is.

## Main definitions

* `Line.Meaningful`, `Line.IsAttribute`, `Line.IsProperty`: what a line is, in the terms of lists.
* `Line.Means`: what a line says that reads as an attribute, a property or nothing.
* `TitleAbove`: the title of the last attribute of some lines.
* `DeclaredAt`: the property that the line at a position declares.

## Main results

* `readLines_cons_eq_ok`: everything that one line can do to a reading that succeeds.
* `forall₂_declaredAt_of_readSource`: the properties of a source, line by line.
-/

namespace ModelGrid.Model

namespace Line

/-! ### What a line is -/

/-- The line is not empty, no lone brace, and has no ignored word in it. -/
def Meaningful (line : List Char) : Prop :=
  line ≠ [] ∧ line ≠ ['\x7b'] ∧ line ≠ ['\x7d'] ∧ ∀ word ∈ ignoredWords, ¬ word <:+: line

instance : DecidablePred Meaningful :=
  fun line => inferInstanceAs (Decidable (line ≠ [] ∧ line ≠ ['\x7b'] ∧ line ≠ ['\x7d'] ∧
    ∀ word ∈ ignoredWords, ¬ word <:+: line))

/-- The line is an attribute. -/
def IsAttribute (line : List Char) : Prop :=
  Meaningful line ∧ ['['] <+: line

/-- The line declares a property. -/
def IsProperty (line : List Char) : Prop :=
  Meaningful line ∧ "public".toList <+: line

instance : DecidablePred IsProperty :=
  fun line => inferInstanceAs (Decidable (Meaningful line ∧ "public".toList <+: line))

theorem carriesNothing_iff {line : List Char} : carriesNothing line = true ↔ ¬ Meaningful line := by
  simp only [carriesNothing, Meaningful, Bool.or_eq_true, List.isEmpty_iff, beq_iff_eq,
    List.any_eq_true, Text.hasPart_iff]
  grind

theorem IsAttribute.not_isProperty {line : List Char} (h : IsAttribute line) :
    ¬ IsProperty line := by
  obtain ⟨_, rest, rfl⟩ := h
  rintro ⟨_, declared⟩
  have := (List.cons_prefix_cons.mp declared).1
  revert this
  decide

/-- What the words of a line that declares a property say. -/
def Declares (line name : List Char) (dataType : DataType) : Prop :=
  ∃ declared identifier, (Text.words line)[1]? = some declared ∧
    (Text.words line)[2]? = some identifier ∧ name = uncapitalize identifier ∧
    dataType = DataType.ofDeclared declared

/-- A name that begins with a lower case letter and has no blank. -/
def IsName (name : List Char) : Prop :=
  (∃ c cs, name = c :: cs ∧ Text.isLowercase c = true) ∧ ∀ c ∈ name, Text.isBlank c = false

theorem not_isBlank_of_mem_uncapitalize {w : List Char} (word : Text.IsWord w) :
    ∀ c ∈ uncapitalize w, Text.isBlank c = false := by
  intro c mem
  cases w with
  | nil => cases mem
  | cons first rest =>
    rcases List.mem_append.mp mem with front | back
    · exact Text.not_isBlank_lowerForm (word.2 first (by simp)) front
    · exact word.2 c (by simp [back])

/-- What the line says that reads as the second argument. -/
def Means (line : List Char) : Line → Prop
  | ignorable => ¬ Meaningful line
  | titled title => IsAttribute line ∧ title = titleOf line
  | property name dataType => IsProperty line ∧ Declares line name dataType ∧ IsName name
  | faulty _ => Meaningful line

theorem means_propertyOf {line : List Char} (isProperty : IsProperty line) :
    Means line (propertyOf line) := by
  rw [propertyOf]
  split
  next declared identifier rest words =>
    have mem : identifier ∈ Text.words line := by simp [words]
    simp only
    split
    next lower =>
      refine ⟨isProperty, ⟨declared, identifier, by simp [words], by simp [words], rfl, rfl⟩, ?_, ?_⟩
      · cases eq : uncapitalize identifier with
        | nil => rw [eq] at lower; cases lower
        | cons c cs => exact ⟨c, cs, rfl, by rw [eq] at lower; exact lower⟩
      · exact not_isBlank_of_mem_uncapitalize (Text.isWord_of_mem_words mem)
    next => exact isProperty.1
  next => exact isProperty.1

/-- **Every line means what it reads as.** -/
theorem means_ofText (line : List Char) : Means line (ofText line) := by
  rw [ofText]
  split
  next nothing => exact carriesNothing_iff.mp nothing
  next something =>
    have meaningful : Meaningful line := not_not.mp (mt carriesNothing_iff.mpr something)
    split
    next bracket => exact ⟨⟨meaningful, Text.startsWith_iff.mp bracket⟩, rfl⟩
    next =>
      split
      next declares => exact means_propertyOf ⟨meaningful, Text.startsWith_iff.mp declares⟩
      next => exact meaningful

theorem not_mem_normalize {raw : List Char} {c : Char} (h : c ∉ raw) : c ∉ normalize raw := by
  have erased : (accessors.foldl (fun line accessor => Text.eraseFirst accessor line) raw).Sublist
      raw :=
    (Text.eraseFirst_sublist _ _).trans (Text.eraseFirst_sublist _ _)
  exact fun mem => h (((Text.trim_sublist _).trans erased).subset mem)

theorem not_mem_titleOf {line : List Char} (h : '\n' ∉ line) : '\n' ∉ titleOf line := by
  rw [titleOf]
  cases found : (Text.afterFirst? "Column(\"".toList line).bind (Text.beforeLast? "\")".toList) with
  | none => decide
  | some title =>
    obtain ⟨rest, behind, front⟩ := Option.bind_eq_some_iff.mp found
    have inside : title <:+: line :=
      (Text.of_beforeLast?_eq_some front).isInfix.trans
        ((List.suffix_append _ rest).trans (Text.of_afterFirst?_eq_some behind)).isInfix
    exact fun mem => h (inside.subset mem)

end Line

open Line

/-! ### The title above -/

/-- The title of the last attribute of the lines. -/
def TitleAbove (above : List (List Char)) (title : List Char) : Prop :=
  ∃ before marker between, above = before ++ marker :: between ∧ IsAttribute marker ∧
    (∀ line ∈ between, ¬ IsAttribute line) ∧ title = titleOf marker

theorem TitleAbove.of_attribute (above : List (List Char)) {line : List Char}
    (marker : IsAttribute line) : TitleAbove (above ++ [line]) (titleOf line) :=
  ⟨above, line, [], rfl, marker, by simp, rfl⟩

/-- A line that is no attribute leaves the title as it is, a property like any other. -/
theorem TitleAbove.append {above : List (List Char)} {title line : List Char}
    (h : TitleAbove above title) (other : ¬ IsAttribute line) :
    TitleAbove (above ++ [line]) title := by
  obtain ⟨before, marker, between, rfl, isAttribute, none_between, rfl⟩ := h
  refine ⟨before, marker, between ++ [line], by simp, isAttribute, ?_, rfl⟩
  intro l mem
  rcases List.mem_append.mp mem with inside | last
  · exact none_between l inside
  · exact List.mem_singleton.mp last ▸ other

/-- The line at position `i` declares the property, under the title of the nearest attribute above
it. -/
def DeclaredAt (lines : List (List Char)) (i : Nat) (p : Property) : Prop :=
  ∃ line name title, lines[i]? = some line ∧ Declares line name p.dataType ∧
    TitleAbove (lines.take i) title ∧ p.name = String.ofList name ∧ p.title = String.ofList title

/-! ### A reading that succeeds -/

/-- **Everything one line can do** to a reading that succeeds: nothing, or put its title in the
place of the pending one, or declare a property under the pending title, which stays pending. -/
theorem readLines_cons_eq_ok {number : Nat} {pending : Option (List Char)} {raw : List Char}
    {rest : List (List Char)} {ps : List Property}
    (read : readLines number pending (raw :: rest) = .ok ps) :
    (Means (normalize raw) ignorable ∧ readLines (number + 1) pending rest = .ok ps) ∨
    (∃ title, Means (normalize raw) (titled title) ∧
      readLines (number + 1) (some title) rest = .ok ps) ∨
    (∃ name dataType title later, Means (normalize raw) (property name dataType) ∧
      pending = some title ∧ readLines (number + 1) pending rest = .ok later ∧
      ps = ⟨String.ofList name, dataType, String.ofList title⟩ :: later) := by
  have means := means_ofText (normalize raw)
  rw [readLines] at read
  simp only at read
  split at read
  next line =>
    rw [line] at means
    exact .inl ⟨means, read⟩
  next title line =>
    rw [line] at means
    exact .inr (.inl ⟨title, means, read⟩)
  next => cases read
  next name dataType line =>
    rw [line] at means
    split at read
    · cases read
    next title =>
      split at read
      · cases read
      next later tail =>
        cases read
        exact .inr (.inr ⟨name, dataType, title, later, means, rfl, tail, rfl⟩)

/-- The rest of a source is read as its lines say, below lines whose title is the pending one. -/
theorem forall₂_declaredAt_of_readLines {raws above : List (List Char)} {number : Nat}
    {pending : Option (List Char)} {ps : List Property}
    (hangs : ∀ title, pending = some title → TitleAbove above title)
    (read : readLines number pending raws = .ok ps) :
    List.Forall₂ (fun i p => DeclaredAt (above ++ raws.map normalize) i p ∧ IsName p.name.toList)
      ((raws.map normalize).findIdxs (IsProperty ·) above.length) ps := by
  induction raws generalizing above number pending ps with
  | nil =>
    rw [readLines] at read
    cases read
    exact List.Forall₂.nil
  | cons raw rest ih =>
    have shift : above ++ (raw :: rest).map normalize =
        (above ++ [normalize raw]) ++ rest.map normalize := by simp
    have next_start : above.length + 1 = (above ++ [normalize raw]).length := by simp
    rw [shift, List.map_cons, List.findIdxs_cons, next_start]
    rcases readLines_cons_eq_ok read with ⟨meaningless, read'⟩ | ⟨title, ⟨marker, rfl⟩, read'⟩ |
      ⟨name, dataType, title, later, ⟨declaration, declares, isName⟩, rfl, read', rfl⟩
    · have other : ¬ IsProperty (normalize raw) := fun declaration => meaningless declaration.1
      rw [if_neg (by simpa using other)]
      exact ih (fun t eq => (hangs t eq).append fun marker => meaningless marker.1) read'
    · rw [if_neg (by simpa using marker.not_isProperty)]
      refine ih (fun t eq => ?_) read'
      cases eq
      exact .of_attribute above marker
    · rw [if_pos (by simpa using declaration)]
      refine .cons ⟨⟨normalize raw, name, title, ?_, declares, ?_, rfl, rfl⟩, ?_⟩ (ih ?_ read')
      · simp
      · simpa using hangs title rfl
      · simpa using isName
      · exact fun t eq => (hangs t eq).append fun marker => marker.not_isProperty declaration

/-- The lines of a source, normalised. -/
def normalizedLines (source : String) : List (List Char) :=
  (Text.splitOn '\n' source.toList).map normalize

theorem not_mem_of_mem_normalizedLines {source : String} {line : List Char}
    (h : line ∈ normalizedLines source) : '\n' ∉ line := by
  obtain ⟨raw, mem, rfl⟩ := List.mem_map.mp h
  exact not_mem_normalize (Text.not_mem_of_mem_splitOn mem)

theorem DeclaredAt.not_mem_title {source : String} {i : Nat} {p : Property}
    (h : DeclaredAt (normalizedLines source) i p) : '\n' ∉ p.title.toList := by
  obtain ⟨_, _, title, _, _, ⟨before, marker, between, above, _, _, rfl⟩, _, named⟩ := h
  have mem : marker ∈ normalizedLines source :=
    List.mem_of_mem_take (i := i) (by simp [above])
  rw [named, String.toList_ofList]
  exact not_mem_titleOf (not_mem_of_mem_normalizedLines mem)

/-- **Property by property, line by line**: a source that is read has one property for each line
that declares one, in their order, under the title of the nearest attribute above it; the names are
names, and no title goes over the end of a line. -/
theorem forall₂_declaredAt_of_readSource {source : String} {ps : List Property}
    (read : readSource source = .ok ps) :
    List.Forall₂ (DeclaredAt (normalizedLines source))
      ((normalizedLines source).findIdxs (IsProperty ·)) ps ∧
    ∀ p ∈ ps, IsName p.name.toList ∧ '\n' ∉ p.title.toList := by
  have no_title : ∀ title, none = some title → TitleAbove [] title := nofun
  have run := forall₂_declaredAt_of_readLines no_title read
  have named : List.Forall₂ (fun p i => (IsName p.name.toList ∧ '\n' ∉ p.title.toList) ∧
      DeclaredAt (normalizedLines source) i p)
      ps ((normalizedLines source).findIdxs (IsProperty ·)) :=
    (run.imp fun _ _ both => ⟨⟨both.2, both.1.not_mem_title⟩, both.1⟩).flip
  obtain ⟨names, declared⟩ := (List.forall₂_and_left _ _).mp named
  exact ⟨declared.flip, names⟩

/-- Two properties under one title, with a line of either kind without meaning. -/
theorem forall₂_declaredAt_of_readSource_shared :
    let source := "public class Dto\n\x7b\n[Column(\"A (m)\")]\npublic int? Size \x7bget; set;\x7d\n" ++
      "\npublic string Éa \x7b get; set; \x7d \n\x7d"
    let ps : List Property := [⟨"size", .number, "A (m)"⟩, ⟨"éa", .string, "A (m)"⟩]
    readSource source = .ok ps ∧
      List.Forall₂ (DeclaredAt (normalizedLines source)) [3, 5] ps ∧
      ∀ p ∈ ps, IsName p.name.toList ∧ '\n' ∉ p.title.toList := by
  intro source ps
  have read : readSource source = .ok ps := by decide +kernel
  have positions : (normalizedLines source).findIdxs (IsProperty ·) = [3, 5] := by decide +kernel
  exact ⟨read, positions ▸ forall₂_declaredAt_of_readSource read⟩

end ModelGrid.Model
