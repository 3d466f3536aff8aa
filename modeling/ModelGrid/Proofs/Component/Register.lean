import ModelGrid.Proofs.Component.Imported
import ModelGrid.Proofs.Syntax.Hidden
import ModelGrid.Proofs.Text.Occurrences

/-!
# Registered among the imports

What a file imports after a class has been registered in it is known only if the edited text is read
anew.  Where it begins with import lines, behind which there is no word `import`, it does so after the
edit: the import leaves lines, and the declaration behind them brings the word nowhere to light.  It is
put at an edge of the tree, which cuts no word, and it is the name of a class, which ends in
`Component`, with brackets, commas and white space around it (`exists_lines_of_plan`).

So the imports are those that the file had, with the class among them (`registers_of_plan`).  What may
stand in a line is essential to this: a new statement goes behind the path of the last one, in front
of the attributes that this one may have, and takes them (`attributes_importedBy_of_plan`).

## Main definitions

* `IsClassName`: a name that ends in `Component` and does not begin with a small letter.
* `Surrounds`: what stands around the name in a declaration.

## Main results

* `exists_apply_of_plan`: the edited text.
* `exists_lines_of_plan`: the lines at the top of the edited text.
* `registers_of_plan`: the imports of the edited text.
-/

namespace ModelGrid

open Syntax Stretch Edit Lexeme

namespace AngularModule.Registration

/-! ### Names of classes -/

/-- The name of a component's class: a word that ends in `Component` and begins with no small letter. -/
structure IsClassName (name : List Char) : Prop where
  word : IsWord name
  component : "Component".toList <:+ name
  capital : name.head?.any Char.isLower = false

/-- No name of a class hides the word `import`. -/
theorem IsClassName.lacksImport {name : List Char} (isName : IsClassName name) :
    LacksImport name := by
  intro front back eq
  cases back with
  | nil =>
    have ends : "import".toList <:+ name := ⟨front, by rw [eq, List.append_nil]⟩
    exact absurd (List.suffix_of_suffix_length_le ends isName.component (by decide)) (by decide)
  | cons c back => exact ⟨c, rfl, isName.word.2 c (by rw [eq]; simp)⟩

/-- The text around a name brings no letters of `import` to light. -/
structure Surrounds (front back : List Char) : Prop where
  other : 'm' ∉ front ++ back
  apart : back.head?.any Char.isAlpha = false
  first : front.head?.any Char.isLower = false
  last : back.getLast?.any Char.isLower = false

theorem not_mem_of_isLower {found : Option Char} {c : Char} {letters : List Char}
    (is : found = some c) (other : found.any Char.isLower = false)
    (all : letters.all Char.isLower = true) : c ∉ letters := fun mem => by
  rw [is, Option.any_some, List.all_eq_true.mp all c mem] at other
  cases other

/-- A name of a class with the text around it may be inserted wherever no word is cut. -/
theorem Surrounds.lacksImport_insert {front back name u v : List Char} (surrounds : Surrounds front back)
    (isName : IsClassName name) (hides : HidesImport (u ++ v)) (whole : ¬ Cuts u v) :
    LacksImport (u ++ (front ++ name ++ back) ++ v) := by
  obtain ⟨c, name_first, -⟩ := isName.word.1
  have name_last : name.getLast? = some 't' := by
    obtain ⟨init, rfl⟩ := isName.component
    rw [List.getLast?_append]
    rfl
  have lacks : LacksImport (front ++ name ++ back) :=
    (hidesImport_of_not_mem surrounds.other).lacksImport_insert
      (not_cuts_of_head? fun d is => by simpa [is] using surrounds.apart) isName.lacksImport
      ⟨c, name_first, not_mem_of_isLower name_first isName.capital (by decide)⟩
      ⟨'t', name_last, by decide⟩
  refine hides.lacksImport_insert whole lacks ?_ ?_
  · cases front with
    | nil =>
      exact ⟨c, by rw [List.nil_append, List.head?_append, name_first]; rfl,
        not_mem_of_isLower name_first isName.capital (by decide)⟩
    | cons d front => exact ⟨d, rfl, not_mem_of_isLower rfl surrounds.first (by decide)⟩
  · rcases List.eq_nil_or_concat' back with rfl | ⟨init, d, rfl⟩
    · exact ⟨'t', by rw [List.append_nil, List.getLast?_append, name_last]; rfl, by decide⟩
    · exact ⟨d, by simp, not_mem_of_isLower (by simp) surrounds.last (by decide)⟩

/-! ### Declarations -/

theorem isAlpha_of_isBlank {c : Char} (blank : Text.isBlank c = true) : c.isAlpha = false := by
  rw [Bool.eq_false_iff]
  intro letter
  have no_space := not_isSpace_of_isIdentifierPart (letter_of_isAlpha letter)
  simp [isSpace, blank] at no_space

theorem isBlank_of_lineStart? {file : Document} {place : Place} {separator : List Char}
    (h : lineStart? file place = some separator) : ∀ c ∈ separator, Text.isBlank c = true := by
  obtain ⟨⟨lineFeed, rest⟩, found, rfl⟩ := Option.map_eq_some_iff.mp h
  have lineFeed_blank : lineFeed.all Text.isBlank = true := by
    unfold leadingLineFeed? at found
    split at found <;> cases found <;> rfl
  exact List.forall_mem_append.mpr
    ⟨List.all_eq_true.mp lineFeed_blank, fun c mem => List.mem_takeWhile_imp mem⟩

section Declaration

variable {file : Document} {className : List Char} {addition : Addition}

/-- A new property names the declarations once. -/
theorem surrounds_newDeclarations (file : Document) (metadata : Place) (className : List Char) :
    ∃ front back, (newDeclarations file metadata className).text.toList =
      front ++ className ++ back ∧ Surrounds front back ∧
      Text.occurrences "declarations".toList front ≤ 1 ∧ 'd' ∉ back := by
  rw [newDeclarations]
  split
  next =>
    exact ⟨"\n  declarations: [\n".toList ++ classIndent, "\n  ]\n".toList,
      by rw [String.toList_ofList], ⟨by decide, by decide, by decide, by decide⟩, by decide,
      by decide⟩
  next last _ =>
    dsimp only
    split
    next separator found =>
      have blank := isBlank_of_lineStart? found
      have no_m : 'm' ∉ separator := fun mem => absurd (blank _ mem) (by decide)
      have no_d : 'd' ∉ separator := fun mem => absurd (blank _ mem) (by decide)
      let rest := "declarations: [".toList ++
        (if separator.head? == some '\r' then ['\r', '\n'] else ['\n']) ++ classIndent
      have rest_no_m : 'm' ∉ rest := by
        dsimp only [rest]
        split <;> decide
      have once : Text.occurrences "declarations".toList rest ≤ 1 := by
        dsimp only [rest]
        split <;> decide
      refine ⟨',' :: separator ++ rest, separator ++ [']'], ?_, ⟨?_, ?_, ?_, ?_⟩, ?_, by simp [no_d]⟩
      · rw [String.toList_ofList]
        simp [rest]
      · simp only [List.cons_append, List.mem_cons, List.mem_append, not_or]
        exact ⟨by decide, ⟨no_m, rest_no_m⟩, no_m, by decide⟩
      · cases separator with
        | nil => rfl
        | cons d rest => exact isAlpha_of_isBlank (blank d List.mem_cons_self)
      · rfl
      · rw [List.getLast?_concat]
        rfl
      · have no_d' : 'd' ∉ ',' :: separator := by simp [no_d]
        rw [Text.occurrences_append (Text.not_crosses_of_not_mem rfl no_d'),
          Text.occurrences_eq_zero (by decide) no_d', Nat.zero_add]
        exact once
    next =>
      exact ⟨", declarations: [".toList, [']'], by rw [String.toList_ofList],
        ⟨by decide, by decide, by decide, by decide⟩, by decide, by decide⟩

/-- An element does not name the declarations. -/
theorem surrounds_of_newElement? {array : Place}
    (h : newElement? file array className = some addition) :
    ∃ front back, addition.text.toList = front ++ className ++ back ∧ Surrounds front back ∧
      'd' ∉ front ++ back := by
  rw [newElement?] at h
  dsimp only at h
  split at h
  next => cases h
  next =>
    split at h
    next =>
      cases h
      exact ⟨[], [], by simp, ⟨by simp, rfl, rfl, rfl⟩, by simp⟩
    next last _ =>
      cases found : lineStart? file last with
      | none =>
        rw [found] at h
        cases h
        exact ⟨", ".toList, [], by rw [String.toList_ofList, List.append_nil]; rfl,
          ⟨by decide, rfl, rfl, rfl⟩, by decide⟩
      | some separator =>
        rw [found] at h
        cases h
        have blank := isBlank_of_lineStart? found
        have no_m : 'm' ∉ separator := fun mem => absurd (blank _ mem) (by decide)
        have no_d : 'd' ∉ separator := fun mem => absurd (blank _ mem) (by decide)
        exact ⟨',' :: separator, [], by rw [String.toList_ofList, List.append_nil]; rfl,
          ⟨by simp [no_m], rfl, rfl, rfl⟩, by simp [no_d]⟩

/-- The text of a declaration is the name of the class with a text around it. -/
theorem surrounds_of_declarationAddition? {metadata : Place}
    (h : declarationAddition? file metadata className = some addition) :
    ∃ front back, addition.text.toList = front ++ className ++ back ∧ Surrounds front back := by
  rw [declarationAddition?] at h
  split at h
  next =>
    cases h
    obtain ⟨front, back, eq, surrounds, -⟩ := surrounds_newDeclarations file metadata className
    exact ⟨front, back, eq, surrounds⟩
  next =>
    split at h
    next => cases h
    next =>
      split at h
      next =>
        obtain ⟨front, back, eq, surrounds, -⟩ := surrounds_of_newElement? h
        exact ⟨front, back, eq, surrounds⟩
      next => cases h

end Declaration

/-! ### The text of a plan -/

/-- A place behind a text parts what is behind it. -/
theorem parts_behind {layout behind : List Char} {offset : Nat}
    (parts : Parts 0 (layout ++ behind) offset) (lt : Text.size layout < offset) :
    ∃ u v, behind = u ++ v ∧ u ≠ [] ∧ offset = Text.size (layout ++ u) ∧ ¬ Cuts u v := by
  obtain ⟨front, v, eq, size, whole⟩ := parts
  rw [Nat.zero_add] at size
  rcases List.append_eq_append_iff.mp eq with ⟨u, rfl, rfl⟩ | ⟨less, rfl, -⟩
  · have nonempty : u ≠ [] := by
      rintro rfl
      rw [List.append_nil] at size
      omega
    refine ⟨u, v, rfl, nonempty, size.symm, fun cuts => whole ⟨?_, cuts.2⟩⟩
    rw [List.getLast?_append, cuts.1]
    rfl
  · rw [Text.size_append] at lt
    omega

theorem HidesImport.cons {c : Char} {text : List Char} (hides : HidesImport text) (other : c ≠ 'i') :
    HidesImport (c :: text) := by
  intro later mem is_prefix
  rcases List.mem_cons.mp (List.tails_cons c text ▸ mem) with rfl | mem
  · have first : 'i' = c := (List.cons_prefix_cons.mp is_prefix).1
    exact absurd first.symm other
  · exact hides later mem is_prefix

end AngularModule.Registration

namespace Component

open AngularModule AngularModule.Registration

/-- A declaration and an import at other places are inserted there. -/
theorem textsAt_additions {declaration : Addition} {addition : Option Addition} {added : List Char}
    {offset : Nat} (ne : declaration.offset ≠ offset)
    (is : addition = none ∧ added = [] ∨ addition = some ⟨offset, String.ofList added⟩) :
    (∀ i ∈ (declaration :: addition.toList).map asInsertion,
      i.offset = offset ∨ i.offset = declaration.offset) ∧
    Session.textsAt ((declaration :: addition.toList).map asInsertion) offset = added ∧
    Session.textsAt ((declaration :: addition.toList).map asInsertion) declaration.offset =
      declaration.text.toList := by
  rcases is with ⟨rfl, rfl⟩ | rfl
  · simp [Session.textsAt, asInsertion, ne]
  · simp [Session.textsAt, asInsertion, ne, ne.symm]

section Plan

variable {text className importPath : String} (path : String)

/-- **The edited text** has the texts of a plan at their two places. -/
theorem exists_apply_of_plan {front first middle second later : List Char}
    (wellFormed : Node.WellFormed (Document.parse text).text (Document.parse text).root)
    (text_eq : text.toList = front ++ middle ++ later) (nonempty : middle ≠ [])
    (places : ∀ i ∈ (plan (Document.parse text) className importPath).map asInsertion,
      i.offset = Text.size front ∨ i.offset = Text.size (front ++ middle))
    (at_front : Session.textsAt ((plan (Document.parse text) className importPath).map asInsertion)
      (Text.size front) = first)
    (at_middle : Session.textsAt ((plan (Document.parse text) className importPath).map asInsertion)
      (Text.size (front ++ middle)) = second) :
    ∃ s, (Session.start path text).insertAll
        ((plan (Document.parse text) className importPath).map asInsertion) = .ok s ∧
      s.apply.toList = front ++ first ++ middle ++ second ++ later := by
  obtain ⟨s, accepted⟩ := exists_insertAll_of_plan path wellFormed (Document.text_parse text).symm
    fun _ mem => mem
  refine ⟨s, accepted, ?_⟩
  rw [Session.toList_apply_of_insertAll accepted, text_eq,
    Session.layoutFrom_two nonempty places, at_front, at_middle]

variable {lines : List ImportLine} {behind : List Char}

/-- **A plan that declares a class** leaves import lines, to which the class is added, and no word
`import` behind them. -/
theorem exists_lines_of_plan
    (eq : text.toList = Stretch.text (ImportLine.layout lines) ++ behind)
    (hides : HidesImport behind)
    (wellFormed : Node.WellFormed (Document.parse text).text (Document.parse text).root)
    (isName : IsClassName className.toList) (plain : IsPlainPath importPath.toList)
    (planned : plan (Document.parse text) className importPath ≠ []) :
    ∃ s lines' behind', (Session.start path text).insertAll
        ((plan (Document.parse text) className importPath).map asInsertion) = .ok s ∧
      s.apply.toList = Stretch.text (ImportLine.layout lines') ++ behind' ∧
      LacksImport behind' ∧ Added isName.word plain lines lines' := by
  have all := length_imports_of_lines eq hides.lacksImport
  obtain ⟨front, added, back, more, lines', before, after, more_is, lines_added, addition⟩ :=
    leavesLines eq all isName.word plain
  obtain ⟨first, first_mem⟩ := List.exists_mem_of_ne_nil _ planned
  obtain ⟨decorator, metadata, in_file, is_metadata, declaration, declared, plan_eq⟩ :=
    mem_plan first_mem
  have behind_lines := lt_offset_of_declarationAddition? eq wellFormed in_file is_metadata declared
  have parts := Document.parts_of_isEdge
    (isEdge_of_mem_plan wellFormed (plan_eq ▸ List.mem_cons_self))
  rw [eq] at parts
  -- the class is declared behind the lines, and the import is added within them or at their end
  obtain ⟨u, v, rfl, nonempty, offset, whole⟩ := parts_behind parts behind_lines
  have size_eq : declaration.offset = Text.size (front ++ (back ++ u)) := by
    rw [offset, before, List.append_assoc]
  have ne : declaration.offset ≠ Text.size front := by
    rw [before, Text.size_append] at behind_lines
    omega
  obtain ⟨places, at_front, at_middle⟩ := textsAt_additions ne addition
  rw [← plan_eq] at places at_front at_middle
  rw [size_eq] at places at_middle
  have text_eq : text.toList = front ++ (back ++ u) ++ v := by
    rw [eq, before]
    simp
  obtain ⟨s, accepted, edited⟩ := exists_apply_of_plan path wellFormed text_eq (by simp [nonempty])
    places at_front at_middle
  obtain ⟨front', back', declaration_text, surrounds⟩ := surrounds_of_declarationAddition? declared
  refine ⟨s, lines', more ++ u ++ (front' ++ className.toList ++ back') ++ v, accepted, ?_, ?_,
    lines_added⟩
  · rw [edited, ← declaration_text, ← List.append_assoc, ← List.append_assoc, after]
    simp
  · refine surrounds.lacksImport_insert isName ?_ ?_
    · rcases more_is with rfl | rfl
      · exact hides
      · exact HidesImport.cons hides (by decide)
    · refine fun cuts => whole ⟨?_, cuts.2⟩
      have last := cuts.1
      rwa [List.getLast?_append_of_ne_nil more nonempty] at last

/-- **The imports of a file with a class that is registered in it** are those that it had, with the
class among them. -/
theorem registers_of_plan (eq : text.toList = Stretch.text (ImportLine.layout lines) ++ behind)
    (hides : HidesImport behind)
    (wellFormed : Node.WellFormed (Document.parse text).text (Document.parse text).root)
    (isName : IsClassName className.toList) (plain : IsPlainPath importPath.toList) :
    ∃ s, (Session.start path text).insertAll
        ((plan (Document.parse text) className importPath).map asInsertion) = .ok s ∧
      (plan (Document.parse text) className importPath = [] ∧ s.apply = text ∨
        Registers className.toList importPath.toList (importedBy (Document.parse text))
          (importedBy (Document.parse s.apply))) := by
  by_cases none_planned : plan (Document.parse text) className importPath = []
  · refine ⟨Session.start path text, ?_, .inl ⟨none_planned, Session.apply_start path text⟩⟩
    rw [none_planned]
    rfl
  · obtain ⟨s, lines', behind', accepted, edited, lacks, added⟩ :=
      exists_lines_of_plan path eq hides wellFormed isName plain none_planned
    refine ⟨s, accepted, .inr ?_⟩
    rw [importedBy_of_lines eq hides.lacksImport, importedBy_of_lines edited lacks]
    exact added.registers

end Plan

/-- Three imports from elsewhere, the last of them of types and with a trailing comma. -/
theorem registers_of_plan_own :
    let text := "import D from 'd';import * as N from \"n\";\nimport type\x7bT as U,\x7dfrom't';@NgModule(\x7b imports: [B] \x7d)class M\x7b\x7d"
    let file := Document.parse text
    plan file "AComponent" "a" ≠ [] ∧
    ∃ s, (Session.start "m.ts" text).insertAll ((plan file "AComponent" "a").map asInsertion) =
        .ok s ∧
      (plan file "AComponent" "a" = [] ∧ s.apply = text ∨
        Registers "AComponent".toList ['a'] (importedBy file) (importedBy (Document.parse s.apply))) := by
  intro text file
  let d : ImportLine :=
    ⟨.nothing, .values (.default .single
      ⟨['D'], by decide, Keyword.ofChars?_eq_none List.mem_cons_self rfl⟩ .single), .single, '\'',
      .inl rfl, ['d'], by decide, .nothing⟩
  let n : ImportLine :=
    ⟨.nothing, .values (.all .single .single .single
      ⟨['N'], by decide, Keyword.ofChars?_eq_none List.mem_cons_self rfl⟩ .single), .single, '"',
      .inr rfl, ['n'], by decide, .nothing⟩
  let names : NameList :=
    ⟨.nothing, [⟨.nothing, ['T'], by decide, some ⟨.single, .single,
      ⟨['U'], by decide, Keyword.ofChars?_eq_none List.mem_cons_self rfl⟩⟩, .nothing, true⟩],
      List.forall_mem_nil _, .nothing⟩
  let t : ImportLine :=
    ⟨.lineFeed, .types .single (.names names .nothing), .nothing, '\'', .inl rfl, ['t'], by decide,
      .nothing⟩
  have eq : text.toList = Stretch.text (ImportLine.layout [d, n, t]) ++
      "@NgModule(\x7b imports: [B] \x7d)class M\x7b\x7d".toList := by
    rw [String.toList_ofList, String.toList_ofList]
    rfl
  have file_eq : file = _ := Document.parse_ofList _
  have checked : file.root.checks file.text = true ∧ plan file "AComponent" "a" ≠ [] := by
    rw [file_eq]
    decide +kernel
  exact ⟨checked.2, registers_of_plan "m.ts" eq (by decide +kernel)
    (Node.wellFormed_of_checks _ checked.1) ⟨by decide, by decide, by decide⟩ (by decide)⟩

set_option maxRecDepth 4000 in
/-- **Attributes that are lost**: the statement that is added stands in front of the attributes of the
last import and takes them. -/
theorem attributes_importedBy_of_plan :
    let text := "import json from './d.json' with \x7b type: 'json' \x7d;\n@NgModule(\x7b declarations: [] \x7d)\nexport class M \x7b\x7d\n"
    let file := Document.parse text
    let added := plan file "AComponent" "./a.component"
    Node.WellFormed file.text file.root ∧
      (importedBy file).map Imported.attributes =
        [some "with \x7b type: 'json' \x7d".toList] ∧
      ((Session.start "m.ts" text).insertAll (added.map asInsertion)).toOption.map
        (fun s => (s.apply, (importedBy (Document.parse s.apply)).map Imported.attributes)) =
      some ("import json from './d.json';\nimport \x7b AComponent \x7d from './a.component' with \x7b type: 'json' \x7d;\n@NgModule(\x7b declarations: [AComponent] \x7d)\nexport class M \x7b\x7d\n",
        [none, some "with \x7b type: 'json' \x7d".toList]) :=
  map_apply_of_evaluated
    (fun file => (importedBy file).map Imported.attributes =
      [some "with \x7b type: 'json' \x7d".toList])
    (fun file => (importedBy file).map Imported.attributes) rfl rfl (by decide +kernel)

end Component

end ModelGrid
