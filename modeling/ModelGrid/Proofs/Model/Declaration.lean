import ModelGrid.Proofs.Model.Reading
import ModelGrid.Proofs.Naming
import ModelGrid.Proofs.Text.Line

/-!
# Classes read back

A class is written with a column attribute above each of its properties.  Read again, it has these
properties under these titles, as long as no line of it bears a mark of another kind of line: an
ignored word anywhere in it, or an accessor in a title.  A title that has an ignored word inside
another word is lost (`readSource_source_ne_of_ignoredWord`).

## Main definitions

* `Declaration`: a property as it is declared, with its title.
* `source`: the class that declares properties.
* `Declaration.Unmarked`: no line of the declaration bears the mark of another kind of line.

## Main results

* `readLines_declarations`: what the lines of declarations are read as.
* `readSource_source`: a class is read back.
-/

namespace ModelGrid.Model

open Line

/-- A property as it is declared: the title of its column, its type and its name. -/
structure Declaration where
  title : List Char
  type : List Char
  identifier : List Char

namespace Declaration

/-- The title stays on its line, the type is a word, and the name is an identifier of ASCII letters,
digits and underscores. -/
structure Plain (d : Declaration) : Prop where
  title : '\n' ∉ d.title
  type : Text.IsWord d.type
  identifier : ∃ c cs, d.identifier = c :: cs ∧ c.isAlpha = true ∧
    cs.all (fun x => x.isAlphanum || x == '_') = true

/-- The attribute that gives the title. -/
def attributeText (d : Declaration) : List Char :=
  ['[', 'C', 'o', 'l', 'u', 'm', 'n', '('] ++ '"' :: (d.title ++ '"' :: [')', ']'])

/-- The declaration without its accessors. -/
def propertyText (d : Declaration) : List Char :=
  ['p', 'u', 'b', 'l', 'i', 'c'] ++ ' ' :: (d.type ++ ' ' :: d.identifier)

/-- The lines of the declaration, indented. -/
def lines (indent : List Char) (d : Declaration) : List (List Char) :=
  [indent ++ d.attributeText, indent ++ (d.propertyText ++ " \x7b get; set; \x7d".toList)]

/-- No line of the declaration bears the mark of another kind of line: the title has no ignored word
and no accessor in it, and there is no ignored word in the declaration. -/
structure Unmarked (d : Declaration) : Prop where
  title_words : ∀ word ∈ ignoredWords, ¬ word <:+: d.title
  title_accessors : ∀ accessor ∈ accessors, ¬ accessor <:+: d.title
  words : ∀ word ∈ ignoredWords, ¬ word <:+: d.propertyText

/-- The name with its first letter in lower case. -/
def fieldName (d : Declaration) : List Char :=
  match d.identifier with
  | [] => []
  | c :: cs => c.toLower :: cs

/-- The property that is declared. -/
def property (d : Declaration) : Property :=
  ⟨String.ofList d.fieldName, DataType.ofDeclared d.type, String.ofList d.title⟩

end Declaration

/-- Blanks in front of the lines of a class. -/
def classIndent : List Char := List.replicate 4 ' '

/-- Blanks in front of the lines of a declaration. -/
def memberIndent : List Char := List.replicate 8 ' '

/-- The lines in front of the declarations of a class. -/
def openingLines (package name : List Char) : List (List Char) :=
  ["using System;".toList, "namespace".toList ++ ' ' :: package, ['\x7b'],
   classIndent ++ ("public class".toList ++ ' ' :: name), classIndent ++ ['\x7b']]

/-- The lines behind the declarations of a class. -/
def closingLines : List (List Char) :=
  [classIndent ++ ['\x7d'], ['\x7d']]

/-- The class of a package that declares properties. -/
def source (package name : List Char) (ds : List Declaration) : String :=
  String.ofList <| ['\n'].intercalate <|
    openingLines package name ++ ds.flatMap (Declaration.lines memberIndent) ++ closingLines

/-! ### Normalizing lines -/

/-- The accessors with blanks inside the braces. -/
def spacedAccessors : List Char :=
  '\x7b' :: ' ' :: (['g', 'e', 't'] ++ ';' :: [' ', 's', 'e', 't', ';', ' ', '\x7d'])

/-- The accessors without blanks inside the braces. -/
def tightAccessors : List Char :=
  '\x7b' :: (['g', 'e', 't', ';'] ++ ' ' :: (['s', 'e', 't'] ++ ';' :: ['\x7d']))

theorem accessors_eq : accessors = [spacedAccessors, tightAccessors] := by
  simp [accessors, spacedAccessors, tightAccessors]

theorem ignoredWords_eq :
    ignoredWords = [['u', 's', 'i', 'n', 'g'], ['n', 'a', 'm', 'e', 's', 'p', 'a', 'c', 'e'],
      ['p', 'u', 'b', 'l', 'i', 'c', ' ', 'c', 'l', 'a', 's', 's']] := by
  simp [ignoredWords]

/-- What has no brace keeps its place in front of a line whose accessors are taken out. -/
theorem foldl_eraseFirst_append {front : List Char} (braceless : '\x7b' ∉ front) (rest : List Char) :
    accessors.foldl (fun line accessor => Text.eraseFirst accessor line) (front ++ rest) =
      front ++ accessors.foldl (fun line accessor => Text.eraseFirst accessor line) rest := by
  have keeps (part later : List Char) :
      Text.eraseFirst ('\x7b' :: part) (front ++ later) =
        front ++ Text.eraseFirst ('\x7b' :: part) later := by
    refine Text.eraseFirst_append fun s ne suffix begins => ?_
    cases s with
    | nil => exact ne rfl
    | cons c cs =>
      have brace : '\x7b' = c := (List.cons_prefix_cons.mp begins).1
      exact braceless (suffix.subset (brace ▸ List.mem_cons_self))
  exact (congrArg _ (keeps _ _)).trans (keeps _ _)

/-- An indentation makes no difference. -/
theorem normalize_append_of_blanks {blanks line : List Char}
    (all : ∀ b ∈ blanks, Text.isBlank b = true) : normalize (blanks ++ line) = normalize line := by
  have braceless : '\x7b' ∉ blanks := by
    intro mem
    have blank := all _ mem
    revert blank
    decide
  rw [Line.normalize, foldl_eraseFirst_append braceless, Text.trim, Text.trimLeft_blanks_append all]
  rfl

/-- Without accessors in it a line is trimmed, and nothing else. -/
theorem normalize_eq_trim {line : List Char} (clean : ∀ accessor ∈ accessors, ¬ accessor <:+: line) :
    normalize line = Text.trim line := by
  have once (accessor : List Char) (mem : accessor ∈ accessors) :
      Text.eraseFirst accessor line = line := Text.eraseFirst_of_not_isInfix (clean accessor mem)
  have erased : accessors.foldl (fun line accessor => Text.eraseFirst accessor line) line = line :=
    (congrArg _ (once _ (by simp [accessors]))).trans (once _ (by simp [accessors]))
  rw [Line.normalize, erased]

theorem normalize_of_unmarked {line : List Char} {first last : Char} {inner : List Char}
    (spelled : line = first :: (inner ++ [last])) (first_solid : Text.isBlank first = false)
    (last_solid : Text.isBlank last = false) (clean : ∀ accessor ∈ accessors, ¬ accessor <:+: line) :
    normalize line = line := by
  rw [normalize_eq_trim clean, Text.trim, spelled, Text.trimLeft_of_solid first_solid, ← List.cons_append,
    Text.trimRight_append_of_solid last_solid]

/-- What has no brace and ends in no blank stays in front of its line. -/
theorem isPrefix_normalize (first : Char) (inner : List Char) (last : Char)
    (first_solid : Text.isBlank first = false) (last_solid : Text.isBlank last = false)
    (braceless : '\x7b' ∉ first :: (inner ++ [last])) (rest : List Char) :
    first :: (inner ++ [last]) <+: normalize (first :: (inner ++ [last]) ++ rest) := by
  rw [Line.normalize, foldl_eraseFirst_append braceless, Text.trim, List.cons_append,
    Text.trimLeft_of_solid first_solid, List.append_assoc, ← List.cons_append, ← List.cons_append]
  exact Text.isPrefix_trimRight_append last_solid _

/-- A line with an ignored word in it carries nothing. -/
theorem ofText_of_ignoredWord {line word : List Char} (ignored : word ∈ ignoredWords)
    (inside : word <:+: line) : ofText line = .ignorable := by
  have nothing : carriesNothing line = true :=
    carriesNothing_iff.mpr fun meaningful => meaningful.2.2.2 word ignored inside
  rw [ofText, if_pos nothing]

/-- Lines that carry nothing declare nothing. -/
theorem readLines_ignorable_append {raws : List (List Char)}
    (nothing : ∀ line ∈ raws, ofText (normalize line) = .ignorable) (number : Nat)
    (pending : Option (List Char)) (rest : List (List Char)) :
    readLines number pending (raws ++ rest) = readLines (number + raws.length) pending rest := by
  induction raws generalizing number with
  | nil => rfl
  | cons raw raws ih =>
    have later := ih (fun line mem => nothing line (List.mem_cons_of_mem raw mem)) (number + 1)
    rw [List.cons_append, readLines, List.length_cons]
    simp only [nothing raw (by simp), later]
    congr 1
    omega

theorem lower_cases :
    ∀ n < 0x80, (Char.ofNat n).isAlpha = true → (Char.ofNat n).toLower.isLower = true ∧
      (Char.ofNat n).toLower.toNat < 0x80 := by
  decide

/-- The lower case form of an ASCII letter is a lower case letter. -/
theorem lowerForm_of_isAlpha {c : Char} (letter : c.isAlpha = true) :
    Text.lowerForm c = [c.toLower] ∧ Text.isLowercase c.toLower = true := by
  have small : c.toNat < 0x80 := by
    have := Naming.isAlphanum_iff.mp (show c.isAlphanum = true by simp [Char.isAlphanum, letter])
    omega
  obtain ⟨lower, small'⟩ := lower_cases c.toNat small (by simpa using letter)
  rw [Char.ofNat_toNat] at lower small'
  exact ⟨if_pos small, by rw [Text.isLowercase, if_pos small', lower]⟩

namespace Declaration

variable {d : Declaration}

/-! ### The attribute of a declaration -/

/-- What is in an attribute and has no quote is in its title, or in what stands around the title. -/
theorem isInfix_title {part : List Char} (no_quote : '"' ∉ part)
    (h : part <:+: d.attributeText) :
    part <:+: ['[', 'C', 'o', 'l', 'u', 'm', 'n', '('] ∨ part <:+: d.title ∨ part <:+: [')', ']'] :=
  (Text.isInfix_of_isInfix_append_cons no_quote h).imp id
    (Text.isInfix_of_isInfix_append_cons no_quote)

/-- The marks of the other kinds of line are not around a title. -/
theorem mark_apart {part : List Char} (mark : part ∈ accessors ∨ part ∈ ignoredWords) :
    '"' ∉ part ∧ ¬ part <:+: ['[', 'C', 'o', 'l', 'u', 'm', 'n', '('] ∧ ¬ part <:+: [')', ']'] := by
  rw [accessors_eq, ignoredWords_eq] at mark
  simp only [List.mem_cons, List.not_mem_nil, or_false] at mark
  rcases mark with (rfl | rfl) | rfl | rfl | rfl <;>
    exact ⟨by decide, Text.not_isInfix_of_hasPart (by decide),
      Text.not_isInfix_of_hasPart (by decide)⟩

theorem not_isInfix_attributeText {part : List Char} (mark : part ∈ accessors ∨ part ∈ ignoredWords)
    (untitled : ¬ part <:+: d.title) : ¬ part <:+: d.attributeText := by
  obtain ⟨no_quote, not_front, not_back⟩ := mark_apart mark
  intro inside
  rcases isInfix_title no_quote inside with front | title | back
  · exact not_front front
  · exact untitled title
  · exact not_back back

theorem normalize_attributeText (unmarked : d.Unmarked) :
    normalize d.attributeText = d.attributeText := by
  have spelled : d.attributeText =
      '[' :: (['C', 'o', 'l', 'u', 'm', 'n', '('] ++ '"' :: (d.title ++ ['"', ')']) ++ [']']) := by
    simp [attributeText]
  exact normalize_of_unmarked spelled (by decide) (by decide) fun accessor mem =>
    not_isInfix_attributeText (.inl mem) (unmarked.title_accessors accessor mem)

theorem titleOf_attributeText (d : Declaration) : titleOf d.attributeText = d.title := by
  have opening : "Column(\"".toList = ['C', 'o', 'l', 'u', 'm', 'n', '(', '"'] := by simp
  have closing : "\")".toList = ['"', ')'] := by simp
  have behind : Text.afterFirst? "Column(\"".toList d.attributeText =
      some (d.title ++ ['"', ')', ']']) := by
    rw [opening]
    simp [attributeText, Text.afterFirst?, Text.dropPart?]
  have front : Text.beforeLast? "\")".toList (d.title ++ ['"', ')', ']']) = some (d.title ++ []) :=
    Text.beforeLast?_append (by rw [closing]; rfl)
  rw [titleOf, behind, Option.bind_some, front, List.append_nil]
  rfl

/-- The attribute reads as its title. -/
theorem ofText_attributeText (unmarked : d.Unmarked) : ofText d.attributeText = .titled d.title := by
  have meaningful : Meaningful d.attributeText :=
    ⟨by simp [attributeText], by simp [attributeText], by simp [attributeText],
      fun word mem => not_isInfix_attributeText (.inr mem) (unmarked.title_words word mem)⟩
  have something : ¬ carriesNothing d.attributeText = true :=
    fun nothing => carriesNothing_iff.mp nothing meaningful
  have bracket : Text.startsWith ['['] d.attributeText = true :=
    Text.startsWith_iff.mpr ⟨_, rfl⟩
  rw [ofText, if_neg something, if_pos bracket, titleOf_attributeText]

/-! ### The property of a declaration -/

theorem solid_of_isAlphanum {c : Char} (h : c.isAlphanum = true ∨ c = '_') :
    Text.isBlank c = false ∧ c ≠ ' ' ∧ c ≠ '\x7b' ∧ c ≠ ';' := by
  rcases h with alphanumeric | rfl
  · have range := Naming.isAlphanum_iff.mp alphanumeric
    have blank : Text.isBlank c = false := by
      have number : c.val.toNat = c.toNat := rfl
      simp only [Text.isBlank, number, Bool.or_eq_false_iff, Bool.and_eq_false_iff,
        decide_eq_false_iff_not, beq_eq_false_iff_ne]
      omega
    refine ⟨blank, ?_, ?_, ?_⟩ <;> rintro rfl <;> revert alphanumeric <;> decide
  · decide

theorem solid_of_mem_identifier (plain : d.Plain) {x : Char} (mem : x ∈ d.identifier) :
    Text.isBlank x = false ∧ x ≠ ' ' ∧ x ≠ '\x7b' ∧ x ≠ ';' := by
  obtain ⟨c, cs, spelled, letter, rest⟩ := plain.identifier
  rw [spelled] at mem
  rcases List.mem_cons.mp mem with rfl | mem
  · exact solid_of_isAlphanum (.inl (by simp [Char.isAlphanum, letter]))
  · exact solid_of_isAlphanum (by simpa using List.all_eq_true.mp rest x mem)

theorem isWord_identifier (plain : d.Plain) : Text.IsWord d.identifier := by
  obtain ⟨c, cs, spelled, _⟩ := plain.identifier
  exact ⟨by simp [spelled], fun x mem => (solid_of_mem_identifier plain mem).1⟩

theorem words_propertyText (plain : d.Plain) :
    Text.words d.propertyText = [['p', 'u', 'b', 'l', 'i', 'c'], d.type, d.identifier] :=
  Text.words_three ⟨by simp, by simp [Text.isBlank]⟩ plain.type (isWord_identifier plain)

theorem not_space_mem_type (plain : d.Plain) : ' ' ∉ d.type := by
  intro mem
  have solid := plain.type.2 ' ' mem
  revert solid
  decide

/-- What begins with a brace in a property begins in its type, and goes on to the end of the name. -/
theorem brace_in_type (plain : d.Plain) {s : List Char}
    (suffix : '\x7b' :: s <:+ d.propertyText ++ [' ']) :
    ∃ t, ' ' ∉ t ∧ s = t ++ ' ' :: (d.identifier ++ [' ']) := by
  have split : d.propertyText ++ [' '] =
      ['p', 'u', 'b', 'l', 'i', 'c', ' '] ++ (d.type ++ ' ' :: (d.identifier ++ [' '])) := by
    simp [propertyText]
  rw [split] at suffix
  rcases Text.suffix_append_cases suffix with later | ⟨t, front, -⟩
  · rcases Text.suffix_append_cases later with behind | ⟨t, inside, rest⟩
    · have brace : '\x7b' ∈ d.identifier := by
        have mem := behind.subset (List.mem_cons_self ..)
        simpa using mem
      exact absurd rfl (solid_of_mem_identifier plain brace).2.2.1
    · exact ⟨t, fun mem => not_space_mem_type plain (inside.subset (List.mem_cons_of_mem _ mem)), rest⟩
  · have mem : '\x7b' ∈ ['p', 'u', 'b', 'l', 'i', 'c', ' '] := front.subset (List.mem_cons_self ..)
    simp at mem

theorem not_mem_identifier (plain : d.Plain) : ';' ∉ d.identifier := fun mem =>
  (solid_of_mem_identifier plain mem).2.2.2 rfl

/-- The accessors of a property are the first in its line. -/
theorem eraseFirst_spacedAccessors (plain : d.Plain) :
    Text.eraseFirst spacedAccessors ((d.propertyText ++ [' ']) ++ spacedAccessors) =
      d.propertyText ++ [' '] := by
  have alone : Text.eraseFirst spacedAccessors spacedAccessors = [] := by decide
  rw [Text.eraseFirst_append, alone, List.append_nil]
  rintro (_ | ⟨c, s⟩) ne suffix ⟨more, begins⟩
  · exact ne rfl
  · obtain ⟨rfl, begins⟩ := List.cons.inj begins
    obtain ⟨t, no_space, rfl⟩ := brace_in_type plain suffix
    have parts : [] ++ ' ' :: (['g', 'e', 't'] ++ ';' ::
        ([' ', 's', 'e', 't', ';', ' ', '\x7d'] ++ more)) =
        t ++ ' ' :: (d.identifier ++ ' ' :: spacedAccessors) := by
      simpa [spacedAccessors] using begins
    have named := (Text.append_cons_inj (by simp) no_space parts).2
    exact Text.append_cons_ne (by decide) (by decide) (not_mem_identifier plain) named

theorem eraseFirst_tightAccessors (plain : d.Plain) :
    Text.eraseFirst tightAccessors (d.propertyText ++ [' ']) = d.propertyText ++ [' '] := by
  rw [← List.append_nil (d.propertyText ++ [' ']), Text.eraseFirst_append]
  · rfl
  · rintro (_ | ⟨c, s⟩) ne suffix ⟨more, begins⟩
    · exact ne rfl
    · obtain ⟨rfl, begins⟩ := List.cons.inj begins
      obtain ⟨t, no_space, rfl⟩ := brace_in_type plain suffix
      have parts : ['g', 'e', 't', ';'] ++ ' ' :: (['s', 'e', 't'] ++ ';' :: ('\x7d' :: more)) =
          t ++ ' ' :: (d.identifier ++ [' ']) := by
        simpa [tightAccessors] using begins
      have named := (Text.append_cons_inj (by decide) no_space parts).2
      exact Text.append_cons_ne (by decide) (by decide) (not_mem_identifier plain) named

theorem normalize_propertyText (plain : d.Plain) :
    normalize (d.propertyText ++ " \x7b get; set; \x7d".toList) = d.propertyText := by
  have spaced : d.propertyText ++ " \x7b get; set; \x7d".toList =
      (d.propertyText ++ [' ']) ++ spacedAccessors := by simp [spacedAccessors]
  obtain ⟨c, cs, spelled, -⟩ := plain.identifier
  obtain ⟨inner, last, ends⟩ : ∃ inner last, d.identifier = inner ++ [last] :=
    ⟨_, _, (List.dropLast_append_getLast (by simp [spelled])).symm⟩
  have last_solid : Text.isBlank last = false :=
    (solid_of_mem_identifier plain (by simp [ends])).1
  have erased : accessors.foldl (fun line accessor => Text.eraseFirst accessor line)
      (d.propertyText ++ " \x7b get; set; \x7d".toList) = d.propertyText ++ [' '] := by
    rw [accessors_eq, spaced, List.foldl_cons, List.foldl_cons, List.foldl_nil,
      eraseFirst_spacedAccessors plain, eraseFirst_tightAccessors plain]
  have text : d.propertyText =
      'p' :: (['u', 'b', 'l', 'i', 'c'] ++ ' ' :: (d.type ++ ' ' :: inner) ++ [last]) := by
    simp [propertyText, ends]
  rw [Line.normalize, erased, Text.trim, text, List.cons_append, Text.trimLeft_of_solid (by decide),
    ← List.cons_append, Text.trimRight_append_of_blank (by decide), ← List.cons_append,
    Text.trimRight_append_of_solid last_solid]

/-- The property reads as it is declared. -/
theorem ofText_propertyText (plain : d.Plain) (unmarked : d.Unmarked) :
    ofText d.propertyText = .property d.fieldName (DataType.ofDeclared d.type) := by
  have meaningful : Meaningful d.propertyText :=
    ⟨by simp [propertyText], by simp [propertyText], by simp [propertyText], unmarked.words⟩
  have something : ¬ carriesNothing d.propertyText = true :=
    fun nothing => carriesNothing_iff.mp nothing meaningful
  have no_bracket : ¬ Text.startsWith ['['] d.propertyText = true := by
    simp [propertyText, Text.startsWith, Text.dropPart?]
  have keyword : "public".toList = ['p', 'u', 'b', 'l', 'i', 'c'] := by simp
  have declares : Text.startsWith "public".toList d.propertyText = true :=
    Text.startsWith_iff.mpr ⟨' ' :: (d.type ++ ' ' :: d.identifier), by rw [keyword]; rfl⟩
  obtain ⟨c, cs, spelled, letter, -⟩ := plain.identifier
  obtain ⟨lowered, lower⟩ := lowerForm_of_isAlpha letter
  have name : uncapitalize d.identifier = d.fieldName := by
    simp [uncapitalize, fieldName, spelled, lowered]
  have lower_name : (d.fieldName.head?.map Text.isLowercase).getD false = true := by
    simp [fieldName, spelled, lower]
  rw [ofText, if_neg something, if_neg no_bracket, if_pos declares, propertyOf,
    words_propertyText plain]
  simp only [name, lower_name, if_true]

end Declaration

/-! ### A class read back -/

/-- What the lines of declarations are read as, whatever title is pending. -/
theorem readLines_declarations {ds : List Declaration} (plain : ∀ d ∈ ds, d.Plain)
    (unmarked : ∀ d ∈ ds, d.Unmarked) {closing : List (List Char)}
    (nothing : ∀ line ∈ closing, ofText (normalize line) = .ignorable) (number : Nat)
    (pending : Option (List Char)) :
    readLines number pending (ds.flatMap (Declaration.lines memberIndent) ++ closing) =
      .ok (ds.map Declaration.property) := by
  induction ds generalizing number pending with
  | nil =>
    have all_closing := readLines_ignorable_append nothing number pending []
    rw [List.append_nil] at all_closing
    exact all_closing
  | cons d rest ih =>
    have blanks : ∀ b ∈ memberIndent, Text.isBlank b = true := List.all_eq_true.mp (by decide)
    have d_plain := plain d (by simp)
    have d_unmarked := unmarked d (by simp)
    have marker : ofText (normalize (memberIndent ++ d.attributeText)) = .titled d.title := by
      rw [normalize_append_of_blanks blanks, d.normalize_attributeText d_unmarked,
        d.ofText_attributeText d_unmarked]
    have declaration :
        ofText (normalize (memberIndent ++ (d.propertyText ++ " \x7b get; set; \x7d".toList))) =
          .property d.fieldName (DataType.ofDeclared d.type) := by
      rw [normalize_append_of_blanks blanks, d.normalize_propertyText d_plain,
        d.ofText_propertyText d_plain d_unmarked]
    have later := ih (fun e mem => plain e (List.mem_cons_of_mem d mem))
      (fun e mem => unmarked e (List.mem_cons_of_mem d mem)) (number + 1 + 1) (some d.title)
    rw [List.flatMap_cons, List.append_assoc, Declaration.lines, List.cons_append, List.cons_append,
      readLines]
    simp only [marker]
    rw [List.nil_append, readLines]
    simp only [declaration, later]
    rfl

/-- The lines that open a class carry nothing, whatever it is called. -/
theorem ofText_openingLines (package name : List Char) :
    ∀ line ∈ openingLines package name, ofText (normalize line) = .ignorable := by
  have blanks : ∀ b ∈ classIndent, Text.isBlank b = true := List.all_eq_true.mp (by decide)
  intro line mem
  simp only [openingLines, List.mem_cons, List.not_mem_nil, or_false] at mem
  rcases mem with rfl | rfl | rfl | rfl | rfl
  · decide +kernel
  · have keyword : "namespace".toList = 'n' :: (['a', 'm', 'e', 's', 'p', 'a', 'c'] ++ ['e']) := by simp
    have front := isPrefix_normalize 'n' ['a', 'm', 'e', 's', 'p', 'a', 'c'] 'e' (by decide)
      (by decide) (by decide) (' ' :: package)
    rw [← keyword] at front
    exact ofText_of_ignoredWord (by simp [ignoredWords]) front.isInfix
  · decide +kernel
  · have keyword : "public class".toList =
        'p' :: (['u', 'b', 'l', 'i', 'c', ' ', 'c', 'l', 'a', 's'] ++ ['s']) := by simp
    have front := isPrefix_normalize 'p' ['u', 'b', 'l', 'i', 'c', ' ', 'c', 'l', 'a', 's'] 's'
      (by decide) (by decide) (by decide) (' ' :: name)
    rw [← keyword] at front
    rw [normalize_append_of_blanks blanks]
    exact ofText_of_ignoredWord (by simp [ignoredWords]) front.isInfix
  · decide +kernel

theorem ofText_closingLines : ∀ line ∈ closingLines, ofText (normalize line) = .ignorable := by
  decide +kernel

theorem not_mem_openingLines {package name : List Char} (package_line : '\n' ∉ package)
    (name_line : '\n' ∉ name) : ∀ line ∈ openingLines package name, '\n' ∉ line := by
  intro line mem
  simp only [openingLines, List.mem_cons, List.not_mem_nil, or_false] at mem
  rcases mem with rfl | rfl | rfl | rfl | rfl <;>
    simp [package_line, name_line, classIndent]

theorem Declaration.not_mem_lines {d : Declaration} (plain : d.Plain) :
    ∀ line ∈ d.lines memberIndent, '\n' ∉ line := by
  have type_line : '\n' ∉ d.type := by
    intro mem
    have solid := plain.type.2 '\n' mem
    revert solid
    decide
  have identifier_line : '\n' ∉ d.identifier := by
    intro mem
    have solid := (Declaration.solid_of_mem_identifier plain mem).1
    revert solid
    decide
  intro line mem
  simp only [Declaration.lines, List.mem_cons, List.not_mem_nil, or_false] at mem
  rcases mem with rfl | rfl <;>
    simp [memberIndent, Declaration.attributeText, Declaration.propertyText, plain.title, type_line,
      identifier_line]

/-- **A class is read back**, if no line of its declarations bears the mark of another kind of line:
one property for each declaration, in their order, with its title, its type and its name. -/
theorem readSource_source {package name : List Char} {ds : List Declaration}
    (package_line : '\n' ∉ package) (name_line : '\n' ∉ name) (plain : ∀ d ∈ ds, d.Plain)
    (unmarked : ∀ d ∈ ds, d.Unmarked) :
    readSource (source package name ds) = .ok (ds.map Declaration.property) := by
  have one_line : ∀ line ∈ openingLines package name ++ ds.flatMap (Declaration.lines memberIndent) ++
      closingLines, '\n' ∉ line := by
    intro line mem
    rcases List.mem_append.mp mem with mem | last
    · rcases List.mem_append.mp mem with first | mem
      · exact not_mem_openingLines package_line name_line line first
      · obtain ⟨d, declared, mem⟩ := List.mem_flatMap.mp mem
        exact Declaration.not_mem_lines (plain d declared) line mem
    · simp only [closingLines, List.mem_cons, List.not_mem_nil, or_false] at last
      rcases last with rfl | rfl <;> simp [classIndent]
  rw [readSource, source, String.toList_ofList, Text.splitOn_intercalate (by simp [openingLines]) one_line,
    List.append_assoc, readLines_ignorable_append (ofText_openingLines package name)]
  exact readLines_declarations plain unmarked ofText_closingLines _ _

/-- Two declarations, of which the second has a type that is not known. -/
theorem readSource_source_shared :
    let ds : List Declaration := [⟨"Name (m)".toList, "string".toList, "Name".toList⟩,
      ⟨"Ort".toList, "Geo.Point".toList, "x_1".toList⟩]
    readSource (source "Demo".toList "Person".toList ds) = .ok (ds.map Declaration.property) := by
  intro ds
  have plain : ∀ d ∈ ds, d.Plain := by
    intro d mem
    simp only [ds, List.mem_cons, List.not_mem_nil, or_false] at mem
    rcases mem with rfl | rfl
    · exact ⟨by simp, ⟨by simp, by simp [Text.isBlank]⟩, 'N', ['a', 'm', 'e'], by simp, by decide, by decide⟩
    · exact ⟨by simp, ⟨by simp, by simp [Text.isBlank]⟩, 'x', ['_', '1'], by simp, by decide, by decide⟩
  have unmarked : ∀ d ∈ ds, d.Unmarked := by
    intro d mem
    simp only [ds, List.mem_cons, List.not_mem_nil, or_false] at mem
    rcases mem with rfl | rfl <;>
      exact ⟨by decide +kernel, by decide +kernel, by decide +kernel⟩
  exact readSource_source (by simp) (by simp) plain unmarked

/-- A title with an ignored word inside a word is lost: the property comes under the title before. -/
theorem readSource_source_ne_of_ignoredWord :
    let ds : List Declaration := [⟨"Name".toList, "string".toList, "Name".toList⟩,
      ⟨"Housing".toList, "int".toList, "Age".toList⟩]
    (∀ d ∈ ds, d.Plain ∧ '"' ∉ d.title) ∧
      readSource (source "Demo".toList "Person".toList ds) =
        .ok [⟨"name", .string, "Name"⟩, ⟨"age", .number, "Name"⟩] ∧
      readSource (source "Demo".toList "Person".toList ds) ≠
        .ok (ds.map Declaration.property) := by
  intro ds
  have read : readSource (source "Demo".toList "Person".toList ds) =
      .ok [⟨"name", .string, "Name"⟩, ⟨"age", .number, "Name"⟩] := by decide +kernel
  refine ⟨?_, read, read ▸ by decide +kernel⟩
  intro d mem
  simp only [ds, List.mem_cons, List.not_mem_nil, or_false] at mem
  rcases mem with rfl | rfl
  · exact ⟨⟨by simp, ⟨by simp, by simp [Text.isBlank]⟩, 'N', ['a', 'm', 'e'], by simp, by decide,
      by decide⟩, by simp⟩
  · exact ⟨⟨by simp, ⟨by simp, by simp [Text.isBlank]⟩, 'A', ['g', 'e'], by simp, by decide,
      by decide⟩, by simp⟩

end ModelGrid.Model
