import ModelGrid.Proofs.Component.Register
import ModelGrid.Proofs.Syntax.Chars
import Mathlib.Data.List.Find

/-!
# Declared in one property

The declarations of a module are a property of its metadata, and a property may be written in many
ways: as a key with a value, in shorthand, as a method, with a key in quotes or in brackets.  A
registration takes a property for the declarations if it has a value and an identifier or a string as
its key; one of another form it takes for absent, and adds a second one
(`declarationsIn_of_shorthand`).

Where all properties of the name are recognised, the first one alone decides what is planned.  What the
metadata has in the edited file is counted by letters: an object has the name at most as often as the
letters `declarations` stand in it (`declarationsIn_le`), and what is inserted has them only where it is
a new property, the only one then (`inert_of_declarationAddition?`, `inert_of_importAddition?`).

## Main definitions

* `propertyName?`: the name of a property, in whatever form it is written.
* `declarationsIn`: the number of properties of the name.
* `Recognises`: all of them are recognised.

## Main results

* `declarationsIn_of_plan`: the properties of the name after a plan.
-/

namespace ModelGrid

open Syntax Edit

namespace AngularModule.Registration

/-! ### Names of properties -/

/-- The text between the quotes of a string. -/
def unquoted (cs : List Char) : List Char := cs.tail.dropLast

/-- The name that a key is written as.  In brackets, it may be a string; in strings, letters are as
they are. -/
def spelledName? (text : List Char) (key : Node) : Option (List Char) :=
  match key.kind with
  | .propertyIdentifier | .shorthandPropertyIdentifier | .shorthandPropertyIdentifierPattern =>
    some (key.chars text)
  | .stringLiteral => some (unquoted (key.chars text))
  | .computedPropertyName =>
    let literal := key.constructs.find? fun value =>
      value.kind == .stringLiteral || value.kind == .templateString
    literal.map fun value => unquoted (value.chars text)
  | _ => none

/-- The key of a property, in whatever form it is written. -/
def key? (property : Node) : Option Node :=
  match property.kind with
  | .pair => property.childOf? .key
  | .methodDefinition | .objectAssignmentPattern => property.constructs.head?
  | .shorthandPropertyIdentifier => some property
  | _ => none

/-- The name of a property, in whatever form it is written. -/
def propertyName? (text : List Char) (property : Node) : Option (List Char) :=
  (key? property).bind (spelledName? text)

/-- Whether a property has the name `declarations`. -/
def isDeclarations (text : List Char) (property : Node) : Bool :=
  propertyName? text property == some "declarations".toList

/-- The number of properties of an object that have the name `declarations`. -/
def declarationsIn (text : List Char) (object : Node) : Nat :=
  object.constructs.countP (isDeclarations text)

/-- The properties of the object that have the name `declarations` are those that a registration takes
for them: values with an identifier or a string as their key. -/
def Recognises (file : Document) (metadata : Place) : Prop :=
  ∀ property ∈ metadata.constructs,
    isDeclarations file.text property.node = (keyOf? file property == some "declarations".toList)

variable {text : List Char} {n x : Node}

theorem unquoted_isInfix (cs : List Char) : unquoted cs <:+: cs :=
  (List.dropLast_prefix _).isInfix.trans (List.tail_suffix cs).isInfix

/-- The name of a property is written in it. -/
theorem exists_of_propertyName? {name : List Char} (named : propertyName? text n = some name) :
    ∃ x : Node, x.IsIn n ∧ name <:+: x.chars text := by
  obtain ⟨key, is_key, spelled⟩ := Option.bind_eq_some_iff.mp named
  have key_in : key.IsIn n := by
    rw [key?] at is_key
    split at is_key
    · exact Node.isIn_of_mem_children (List.mem_of_find?_eq_some is_key)
    · exact Node.isIn_of_mem_children (List.mem_filter.mp (List.mem_of_head? is_key)).1
    · exact Node.isIn_of_mem_children (List.mem_filter.mp (List.mem_of_head? is_key)).1
    · cases is_key
      exact Node.IsIn.refl _
    · cases is_key
  rw [spelledName?] at spelled
  split at spelled
  · cases spelled
    exact ⟨key, key_in, List.infix_rfl⟩
  · cases spelled
    exact ⟨key, key_in, List.infix_rfl⟩
  · cases spelled
    exact ⟨key, key_in, List.infix_rfl⟩
  · cases spelled
    exact ⟨key, key_in, unquoted_isInfix _⟩
  · obtain ⟨value, is_value, rfl⟩ := Option.map_eq_some_iff.mp spelled
    have value_in := Node.isIn_of_mem_children
      (List.mem_filter.mp (List.mem_of_find?_eq_some is_value)).1
    exact ⟨value, value_in.trans key_in, unquoted_isInfix _⟩
  · cases spelled

theorem countP_le_sum_map {α : Type} {p : α → Bool} {f : α → Nat} {as : List α}
    (one : ∀ a ∈ as, p a = true → 1 ≤ f a) : as.countP p ≤ (as.map f).sum := by
  induction as with
  | nil => exact Nat.le_refl 0
  | cons a as ih =>
    obtain ⟨first, later⟩ := List.forall_mem_cons.mp one
    have rest := ih later
    rw [List.countP_cons, List.map_cons, List.sum_cons]
    split
    next is =>
      have := first is
      omega
    next => omega

/-- **An object has the name `declarations`** at most as often as the letters stand in it. -/
theorem declarationsIn_le (h : Node.WellFormed text n) :
    declarationsIn text n ≤ Text.occurrences "declarations".toList (n.chars text) := by
  have named : ∀ child ∈ n.children,
      (isDeclarations text child && (child.kind.isNamed && !child.isExtra)) = true →
        1 ≤ Text.occurrences "declarations".toList (child.chars text) := by
    intro child mem is
    obtain ⟨x, there, written⟩ :=
      exists_of_propertyName? (beq_iff_eq.mp (Bool.and_eq_true_iff.mp is).1)
    have formed := h.isIn (Node.isIn_of_mem_children mem)
    exact Text.occurrences_pos (by decide) (written.trans (formed.chars_isInfix there))
  rw [declarationsIn, Node.constructs, List.countP_filter]
  exact (countP_le_sum_map named).trans (Node.sum_occurrences_chars_le _ h)

/-! ### Properties that are recognised -/

section Recognised

variable {file : Document} {metadata : Place}

/-- The first property with the name is the one that a registration looks into. -/
theorem Recognises.find?_eq (recognises : Recognises file metadata) :
    (metadata.constructs.find? fun property =>
      keyOf? file property == some "declarations".toList) =
    metadata.constructs.find? fun property => isDeclarations file.text property.node :=
  List.find?_congr fun property mem => (recognises property mem).symm

/-- Without such a property, the object has none of the name. -/
theorem Recognises.declarationsIn_eq_zero (recognises : Recognises file metadata)
    (none_found : (metadata.constructs.find? fun property =>
      keyOf? file property == some "declarations".toList) = none) :
    declarationsIn file.text metadata.node = 0 := by
  rw [declarationsIn, ← Place.map_node_constructs, List.countP_map, List.countP_eq_zero]
  intro property mem is
  rw [recognises.find?_eq] at none_found
  exact List.find?_eq_none.mp none_found property mem is

/-- **Nothing is planned** where the first property of the name is no array. -/
theorem plan_eq_nil_of_not_array {className importPath : String} {property : Place}
    (is_metadata : metadata? file = some metadata) (recognises : Recognises file metadata)
    (first : metadata.constructs.find?
      (fun property => isDeclarations file.text property.node) = some property)
    (no_array : ∀ value, property.childOf? .value = some value → value.node.kind ≠ .array) :
    plan file className importPath = [] := by
  have none_declared : declarationAddition? file metadata className.toList = none := by
    rw [declarationAddition?, recognises.find?_eq, first]
    dsimp only
    cases value : property.childOf? .value with
    | none => rfl
    | some value' => exact if_neg fun is => no_array value' value (beq_iff_eq.mp is)
  simp [plan, is_metadata, none_declared]

end Recognised

/-! ### The letters of the name -/

/-- The letters do not begin at the end of a text that ends like the name of a class. -/
theorem not_crosses_of_component {a b : List Char} (component : "Component".toList <:+ a) :
    ¬ Text.Crosses "declarations".toList a b := by
  rintro ⟨x, y, nonempty, -, word, ends, -⟩
  have listed : x ∈ "declarations".toList.inits := (List.mem_inits _ _).mpr ⟨y, word⟩
  have apart : ∀ x ∈ "declarations".toList.inits, x ≠ [] →
      ¬ x <:+ "Component".toList ∧ ¬ "Component".toList <:+ x := by decide
  obtain ⟨not_in, not_around⟩ := apart x listed nonempty
  rcases List.suffix_or_suffix_of_suffix ends component with is | is
  · exact not_in is
  · exact not_around is

/-- The letters do not go on in an import. -/
theorem not_crosses_of_import {a b : List Char} (begins : "import".toList <+: b) :
    ¬ Text.Crosses "declarations".toList a b := by
  rintro ⟨x, y, -, nonempty, word, -, starts⟩
  have listed : y ∈ "declarations".toList.tails := (List.mem_tails _ _).mpr ⟨x, word⟩
  have apart : ∀ y ∈ "declarations".toList.tails, y ≠ [] →
      ¬ y <+: "import".toList ∧ ¬ "import".toList <+: y := by decide
  obtain ⟨not_in, not_around⟩ := apart y listed nonempty
  rcases List.prefix_or_prefix_of_prefix starts begins with is | is
  · exact not_in is
  · exact not_around is

/-- What is inserted is the name of a class with a text around it, so the letters go over none of its
ends, and are in the text around the name. -/
theorem inert_around {front name back : List Char} (isName : IsClassName name)
    (absent : Text.occurrences "declarations".toList name = 0)
    (begins : front.head?.any Char.isLower = false ∨ "import".toList <+: front)
    (ends : back.getLast?.any Char.isLower = false) :
    Text.Inert "declarations".toList (front ++ name ++ back) ∧
      Text.occurrences "declarations".toList (front ++ name ++ back) =
        Text.occurrences "declarations".toList front +
          Text.occurrences "declarations".toList back := by
  obtain ⟨c, first, -⟩ := isName.word.1
  have name_apart (a b : List Char) : ¬ Text.Crosses "declarations".toList a (name ++ b) := by
    refine Text.not_crosses_of_head fun d is => ?_
    rw [List.head?_append, first] at is
    cases is
    exact not_mem_of_isLower first isName.capital (by decide)
  refine ⟨⟨fun outer later => ?_, fun later => ?_⟩, ?_⟩
  · rcases begins with other | is_import
    · cases front with
      | nil =>
        rw [List.nil_append, List.append_assoc]
        exact name_apart _ _
      | cons d front =>
        exact Text.not_crosses_of_head fun e is => not_mem_of_isLower is other (by decide)
    · refine not_crosses_of_import (is_import.trans ?_)
      rw [List.append_assoc, List.append_assoc]
      exact List.prefix_append _ _
  · rcases List.eq_nil_or_concat' back with rfl | ⟨init, d, rfl⟩
    · rw [List.append_nil]
      exact not_crosses_of_component (isName.component.trans (List.suffix_append _ _))
    · refine Text.not_crosses_of_last fun e is => ?_
      rw [← List.append_assoc, List.getLast?_concat] at is
      cases is
      exact not_mem_of_isLower List.getLast?_concat ends (by decide)
  · have behind : ¬ Text.Crosses "declarations".toList (front ++ name) back :=
      not_crosses_of_component (isName.component.trans (List.suffix_append _ _))
    have around := name_apart front []
    rw [List.append_nil] at around
    rw [Text.occurrences_append behind, Text.occurrences_append around, absent, Nat.add_zero]

section Texts

variable {file : Document} {metadata : Place} {className path : List Char} {addition : Addition}

/-- A declaration has the letters once if it is a new property, and else not at all. -/
theorem inert_of_declarationAddition? (isName : IsClassName className)
    (absent : Text.occurrences "declarations".toList className = 0)
    (h : declarationAddition? file metadata className = some addition) :
    Text.Inert "declarations".toList addition.text.toList ∧
      (Text.occurrences "declarations".toList addition.text.toList = 0 ∨
        Text.occurrences "declarations".toList addition.text.toList ≤ 1 ∧
          (metadata.constructs.find? fun property =>
            keyOf? file property == some "declarations".toList) = none) := by
  rw [declarationAddition?] at h
  split at h
  next none_found =>
    cases h
    obtain ⟨front, back, eq, surrounds, once, no_d⟩ :=
      surrounds_newDeclarations file metadata className
    obtain ⟨inert, count⟩ := inert_around isName absent (.inl surrounds.first) surrounds.last
    rw [eq, count, Text.occurrences_eq_zero (by decide) no_d, Nat.add_zero]
    exact ⟨inert, .inr ⟨once, none_found⟩⟩
  next =>
    split at h
    next => cases h
    next =>
      split at h
      next =>
        obtain ⟨front, back, eq, surrounds, no_d⟩ := surrounds_of_newElement? h
        rw [List.mem_append, not_or] at no_d
        obtain ⟨inert, count⟩ := inert_around isName absent (.inl surrounds.first) surrounds.last
        rw [eq, count, Text.occurrences_eq_zero (by decide) no_d.1,
          Text.occurrences_eq_zero (by decide) no_d.2]
        exact ⟨inert, .inl rfl⟩
      next => cases h

/-- A path in quotes has the letters if the path does. -/
theorem occurrences_quoted (absent : Text.occurrences "declarations".toList path = 0)
    {back : List Char} (no_d : 'd' ∉ back) :
    Text.occurrences "declarations".toList (" \x7d from '".toList ++ (path ++ '\'' :: back)) = 0 := by
  have front : ¬ Text.Crosses "declarations".toList " \x7d from '".toList (path ++ '\'' :: back) :=
    Text.not_crosses_of_last fun d is => by
      cases is
      decide
  have behind : ¬ Text.Crosses "declarations".toList path ('\'' :: back) :=
    Text.not_crosses_of_head fun d is => by
      cases is
      decide
  have no_d' : 'd' ∉ '\'' :: back := by simp [no_d]
  rw [Text.occurrences_append front, Text.occurrences_append behind, absent,
    Text.occurrences_eq_zero (by decide) no_d']
  decide

theorem getLast?_quoted (path back : List Char) :
    (" \x7d from '".toList ++ (path ++ '\'' :: back)).getLast? = ('\'' :: back).getLast? := by
  rw [List.getLast?_append_of_ne_nil _ (by simp),
    List.getLast?_append_of_ne_nil _ (List.cons_ne_nil _ _)]

/-- An import does not have the letters. -/
theorem inert_of_importAddition? (isName : IsClassName className)
    (absent : Text.occurrences "declarations".toList className = 0)
    (path_absent : Text.occurrences "declarations".toList path = 0)
    (h : importAddition? file className path = some addition) :
    Text.Inert "declarations".toList addition.text.toList ∧
      Text.occurrences "declarations".toList addition.text.toList = 0 := by
  -- the name stands between two texts without the letters
  have around (front back : List Char) (eq : addition.text.toList = front ++ className ++ back)
      (begins : front.head?.any Char.isLower = false ∨ "import".toList <+: front)
      (ends : back.getLast?.any Char.isLower = false) (no_d : 'd' ∉ front)
      (none_behind : Text.occurrences "declarations".toList back = 0) :
      Text.Inert "declarations".toList addition.text.toList ∧
        Text.occurrences "declarations".toList addition.text.toList = 0 := by
    obtain ⟨inert, count⟩ := inert_around isName absent begins ends
    rw [eq, count, Text.occurrences_eq_zero (by decide) no_d, none_behind]
    exact ⟨inert, rfl⟩
  rw [importAddition?] at h
  dsimp only at h
  split at h
  next =>
    obtain ⟨group, -, h⟩ := Option.bind_eq_some_iff.mp h
    rw [newSpecifier?] at h
    split at h
    next => cases h
    next =>
      split at h
      next =>
        cases h
        exact around ", ".toList [] (by simp) (.inl rfl) rfl (by decide) rfl
      next =>
        cases h
        exact around [' '] [' '] (by simp) (.inl rfl) rfl (by decide) (by decide)
  next =>
    split at h
    next =>
      cases h
      exact around ";\nimport \x7b ".toList (" \x7d from '".toList ++ (path ++ '\'' :: [])) (by simp)
        (.inl rfl) (by rw [getLast?_quoted]; rfl) (by decide)
        (occurrences_quoted path_absent (by decide))
    next =>
      cases h
      exact around "import \x7b ".toList (" \x7d from '".toList ++ (path ++ '\'' :: ";\n".toList))
        (by simp) (.inr (by decide)) (by rw [getLast?_quoted]; rfl) (by decide)
        (occurrences_quoted path_absent (by decide))

end Texts

end AngularModule.Registration

namespace Component

open AngularModule AngularModule.Registration

variable {text className importPath : String} {metadata : Place} {declaration : Addition}

theorem exists_of_isBoundary {cs : List Char} {offset : Nat} (h : Text.IsBoundary cs offset) :
    ∃ front back, cs = front ++ back ∧ Text.size front = offset := by
  obtain ⟨⟨front, back⟩, cut⟩ := Option.isSome_iff_exists.mp h
  exact ⟨front, back, Text.splitAt?_eq_some_iff.mp cut⟩

theorem isIn_of_metadata? {file : Document} (is_metadata : metadata? file = some metadata) :
    metadata.IsIn file.root ∧ metadata.node.kind = .object := by
  obtain ⟨decorator, in_file, decorates⟩ := List.exists_of_findSome?_eq_some is_metadata
  exact isIn_of_metadataOf? in_file decorates

theorem plan_of_declarationAddition? (importPath : String)
    (is_metadata : metadata? (Document.parse text) = some metadata)
    (declared : declarationAddition? (Document.parse text) metadata className.toList =
      some declaration) :
    plan (Document.parse text) className importPath = declaration ::
      (importAddition? (Document.parse text) className.toList importPath.toList).toList := by
  simp [plan, is_metadata, declared]

/-- Where no import is planned, the edited text has the declaration as its only addition. -/
theorem exists_edit_of_plan_declaration (path importPath : String)
    (wellFormed : Node.WellFormed (Document.parse text).text (Document.parse text).root)
    (is_metadata : metadata? (Document.parse text) = some metadata)
    (declared : declarationAddition? (Document.parse text) metadata className.toList =
      some declaration)
    (addition : importAddition? (Document.parse text) className.toList importPath.toList = none) :
    ∃ s front back, (Session.start path text).insertAll
        ((plan (Document.parse text) className importPath).map asInsertion) = .ok s ∧
      text.toList = front ++ back ∧
      s.apply.toList = front ++ declaration.text.toList ++ back := by
  have plan_eq := plan_of_declarationAddition? importPath is_metadata declared
  obtain ⟨there, is_object⟩ := isIn_of_metadata? is_metadata
  obtain ⟨edge, inside, -⟩ := inside_of_declarationAddition? declared wellFormed there is_object
  have boundary := edge.isBoundary wellFormed
  rw [Document.text_parse] at boundary
  obtain ⟨front, back, text_eq, size⟩ := exists_of_isBoundary boundary
  -- the brace of the metadata is in front of the declaration
  have ne : declaration.offset ≠ Text.size [] := by
    rw [Text.size_nil]
    omega
  have nonempty : front ≠ [] := by
    rintro rfl
    exact ne size.symm
  obtain ⟨places, at_start, at_declaration⟩ := textsAt_additions ne (.inl ⟨addition, rfl⟩)
  rw [← plan_eq] at places at_start at_declaration
  rw [← size] at places at_declaration
  have text_eq' : text.toList = [] ++ front ++ back := text_eq
  obtain ⟨s, accepted, edited⟩ := exists_apply_of_plan path wellFormed text_eq' nonempty places
    at_start at_declaration
  exact ⟨s, front, back, accepted, text_eq, edited⟩

/-- The edited text has the declaration and the import, whichever of them comes first. -/
theorem exists_edit_of_plan (path importPath : String)
    (wellFormed : Node.WellFormed (Document.parse text).text (Document.parse text).root)
    (is_metadata : metadata? (Document.parse text) = some metadata)
    (declared : declarationAddition? (Document.parse text) metadata className.toList =
      some declaration) :
    ∃ s front middle later added, (Session.start path text).insertAll
        ((plan (Document.parse text) className importPath).map asInsertion) = .ok s ∧
      text.toList = front ++ middle ++ later ∧
      (added = [] ∨ ∃ a, importAddition? (Document.parse text) className.toList importPath.toList =
        some a ∧ added = a.text.toList) ∧
      (s.apply.toList = front ++ added ++ middle ++ declaration.text.toList ++ later ∨
        s.apply.toList = front ++ declaration.text.toList ++ middle ++ added ++ later) := by
  have plan_eq := plan_of_declarationAddition? importPath is_metadata declared
  have boundary : ∀ a ∈ plan (Document.parse text) className importPath,
      Text.IsBoundary text.toList a.offset := fun a mem => by
    have between := isBoundary_of_mem_plan wellFormed mem
    rwa [Document.text_parse] at between
  have distinct := pairwise_offset_ne_plan wellFormed className importPath
  rw [plan_eq] at boundary distinct
  cases addition : importAddition? (Document.parse text) className.toList importPath.toList with
  | none =>
    obtain ⟨s, front, back, accepted, text_eq, edited⟩ :=
      exists_edit_of_plan_declaration path importPath wellFormed is_metadata declared addition
    exact ⟨s, [], front, back, [], accepted, text_eq, .inl rfl, .inl edited⟩
  | some a =>
    obtain ⟨front, back, text_eq, size⟩ := exists_of_isBoundary (boundary _ List.mem_cons_self)
    rw [addition] at boundary distinct
    obtain ⟨front', back', text_eq', size'⟩ := exists_of_isBoundary (boundary a (by simp))
    have ne : declaration.offset ≠ a.offset := by simpa using distinct
    have is : importAddition? (Document.parse text) className.toList importPath.toList =
        some ⟨a.offset, String.ofList a.text.toList⟩ := by
      rw [addition, String.ofList_toList]
    obtain ⟨places, at_import, at_declaration⟩ := textsAt_additions ne (.inr is)
    rw [← plan_eq] at places at_import at_declaration
    rw [← size, ← size'] at places ne
    rw [← size] at at_declaration
    rw [← size'] at at_import
    have both := text_eq.symm.trans text_eq'
    -- an import statement may also stand behind the class
    rcases Nat.lt_or_gt_of_ne ne with before | behind
    · obtain ⟨m, rfl, -⟩ := Text.exists_of_size_le both (Nat.le_of_lt before)
      have nonempty : m ≠ [] := by
        rintro rfl
        simp at before
      obtain ⟨s, accepted, edited⟩ := exists_apply_of_plan path wellFormed text_eq' nonempty
        (fun i mem => (places i mem).symm) at_declaration at_import
      exact ⟨s, front, m, back', a.text.toList, accepted, text_eq', .inr ⟨a, rfl, rfl⟩, .inr edited⟩
    · obtain ⟨m, rfl, -⟩ := Text.exists_of_size_le both.symm (Nat.le_of_lt behind)
      have nonempty : m ≠ [] := by
        rintro rfl
        simp at behind
      obtain ⟨s, accepted, edited⟩ := exists_apply_of_plan path wellFormed text_eq nonempty
        places at_import at_declaration
      exact ⟨s, front', m, back, a.text.toList, accepted, text_eq, .inr ⟨a, rfl, rfl⟩, .inl edited⟩

/-- A plan brings the letters into the text where it declares the class in a new property, and once
there. -/
theorem occurrences_apply_le (path : String)
    (wellFormed : Node.WellFormed (Document.parse text).text (Document.parse text).root)
    (is_metadata : metadata? (Document.parse text) = some metadata)
    (recognises : Recognises (Document.parse text) metadata) (isName : IsClassName className.toList)
    (absent : Text.occurrences "declarations".toList className.toList = 0)
    (path_absent : Text.occurrences "declarations".toList importPath.toList = 0)
    (only : Text.occurrences "declarations".toList text.toList ≤
      declarationsIn (Document.parse text).text metadata.node) :
    ∃ s, (Session.start path text).insertAll
        ((plan (Document.parse text) className importPath).map asInsertion) = .ok s ∧
      Text.occurrences "declarations".toList s.apply.toList ≤
        max 1 (declarationsIn (Document.parse text).text metadata.node) := by
  cases declared : declarationAddition? (Document.parse text) metadata className.toList with
  | none =>
    have none_planned : plan (Document.parse text) className importPath = [] := by
      simp [plan, is_metadata, declared]
    refine ⟨Session.start path text, ?_, ?_⟩
    · rw [none_planned]
      rfl
    · rw [Session.apply_start]
      exact only.trans (Nat.le_max_right _ _)
  | some declaration =>
    obtain ⟨s, front, middle, later, added, accepted, text_eq, import_text, edited⟩ :=
      exists_edit_of_plan path importPath wellFormed is_metadata declared
    obtain ⟨inert, count⟩ := inert_of_declarationAddition? isName absent declared
    have import_le (a c : List Char) : Text.occurrences "declarations".toList (a ++ added ++ c) ≤
        Text.occurrences "declarations".toList (a ++ c) := by
      rcases import_text with rfl | ⟨addition, is_addition, rfl⟩
      · rw [List.append_nil]
      · obtain ⟨import_inert, none⟩ :=
          inert_of_importAddition? isName absent path_absent is_addition
        have at_most := Text.occurrences_insert_le import_inert a c
        omega
    have at_most : Text.occurrences "declarations".toList s.apply.toList ≤
        Text.occurrences "declarations".toList text.toList +
          Text.occurrences "declarations".toList declaration.text.toList := by
      rcases edited with eq | eq
      · have outer := import_le front (middle ++ declaration.text.toList ++ later)
        have inner := Text.occurrences_insert_le inert (front ++ middle) later
        simp only [eq, text_eq, List.append_assoc] at outer inner ⊢
        omega
      · have outer := Text.occurrences_insert_le inert front (middle ++ added ++ later)
        have inner := import_le (front ++ middle) later
        simp only [eq, text_eq, List.append_assoc] at outer inner ⊢
        omega
    refine ⟨s, accepted, ?_⟩
    rcases count with zero | ⟨once, none_found⟩
    · omega
    · have none_there := recognises.declarationsIn_eq_zero none_found
      omega

/-- **Declared in one property**: where every property of the metadata with the name `declarations` is
recognised, nothing is planned if the first of them is no array.  And where the letters are in the file
for these properties only, no object of the edited file has more such properties than the metadata
had, unless it had none and another one has one. -/
theorem declarationsIn_of_plan (path : String)
    (wellFormed : Node.WellFormed (Document.parse text).text (Document.parse text).root)
    (is_metadata : metadata? (Document.parse text) = some metadata)
    (recognises : Recognises (Document.parse text) metadata) :
    (∀ property, metadata.constructs.find?
        (fun property => isDeclarations (Document.parse text).text property.node) = some property →
      (∀ value, property.childOf? .value = some value → value.node.kind ≠ .array) →
      plan (Document.parse text) className importPath = []) ∧
    (IsClassName className.toList → ¬ "declarations".toList <:+: className.toList →
      ¬ "declarations".toList <:+: importPath.toList →
      Text.occurrences "declarations".toList text.toList ≤
        declarationsIn (Document.parse text).text metadata.node →
      ∃ s, (Session.start path text).insertAll
          ((plan (Document.parse text) className importPath).map asInsertion) = .ok s ∧
        (Node.WellFormed (Document.parse s.apply).text (Document.parse s.apply).root →
          ∀ object : Node, object.IsIn (Document.parse s.apply).root →
            declarationsIn (Document.parse s.apply).text object ≤
              max 1 (declarationsIn (Document.parse text).text metadata.node))) := by
  refine ⟨fun property => plan_eq_nil_of_not_array is_metadata recognises,
    fun isName absent path_absent only => ?_⟩
  obtain ⟨s, accepted, at_most⟩ := occurrences_apply_le path wellFormed is_metadata recognises
    isName (Text.occurrences_of_not_isInfix absent) (Text.occurrences_of_not_isInfix path_absent) only
  refine ⟨s, accepted, fun edited_formed object there => ?_⟩
  have object_formed := edited_formed.isIn there
  obtain ⟨front, back, eq, -⟩ := object_formed.exists_chars
  have inside : object.chars (Document.parse s.apply).text <:+: s.apply.toList :=
    ⟨front, back, by rw [← eq, Document.text_parse]⟩
  exact (declarationsIn_le object_formed).trans
    ((Text.occurrences_le_of_isInfix inside).trans at_most)

/-- A key in quotes with an array behind it, and one with another value. -/
theorem declarationsIn_of_plan_quoted :
    (let text := "@NgModule(\x7b'declarations':[B]\x7d)class M\x7b\x7d"
     let file := Document.parse text
     ∃ metadata, metadata? file = some metadata ∧ Recognises file metadata ∧
      ∃ s, (Session.start "m.ts" text).insertAll ((plan file "AComponent" "a").map asInsertion) =
          .ok s ∧
        s.apply = "import \x7b AComponent \x7d from 'a';\n@NgModule(\x7b'declarations':[B, AComponent]\x7d)class M\x7b\x7d" ∧
        ∀ object : Node, object.IsIn (Document.parse s.apply).root →
          declarationsIn (Document.parse s.apply).text object ≤
            max 1 (declarationsIn file.text metadata.node)) ∧
    plan (Document.parse "@NgModule(\x7bdeclarations:list\x7d)class M\x7b\x7d") "AComponent" "a" = [] := by
  let recognised (file : Document) : Bool := (metadata? file).all fun metadata =>
    metadata.constructs.all fun property => isDeclarations file.text property.node ==
      (keyOf? file property == some "declarations".toList)
  have recognises {file : Document} {metadata : Place} (is_metadata : metadata? file = some metadata)
      (all : recognised file = true) : Recognises file metadata := by
    dsimp only [recognised] at all
    rw [is_metadata] at all
    exact fun property mem => beq_iff_eq.mp (List.all_eq_true.mp all property mem)
  constructor
  · intro text file
    obtain ⟨formed, ⟨found, all⟩, edited⟩ : Node.WellFormed file.text file.root ∧
        ((metadata? file).map (fun metadata => declarationsIn file.text metadata.node) = some 1 ∧
          recognised file = true) ∧
        ((Session.start "m.ts" text).insertAll
            ((plan file "AComponent" "a").map asInsertion)).toOption.map
          (fun s => (s.apply, (Document.parse s.apply).root.checks (Document.parse s.apply).text)) =
        some ("import \x7b AComponent \x7d from 'a';\n@NgModule(\x7b'declarations':[B, AComponent]\x7d)class M\x7b\x7d", true) :=
      map_apply_of_evaluated
        (fun file => (metadata? file).map (fun metadata => declarationsIn file.text metadata.node) =
          some 1 ∧ recognised file = true)
        (fun file => file.root.checks file.text) rfl rfl (by decide +kernel)
    obtain ⟨metadata, is_metadata, counted⟩ := Option.map_eq_some_iff.mp found
    have only : Text.occurrences "declarations".toList text.toList ≤
        declarationsIn file.text metadata.node := by
      rw [counted, String.toList_ofList, String.toList_ofList]
      decide
    have isName : IsClassName "AComponent".toList := ⟨by decide, by decide, by decide⟩
    have absent : ¬ "declarations".toList <:+: "AComponent".toList := by decide
    have path_absent : ¬ "declarations".toList <:+: "a".toList := by decide
    obtain ⟨s, accepted, at_most⟩ := (declarationsIn_of_plan "m.ts" formed is_metadata
      (recognises is_metadata all)).2 isName absent path_absent only
    rw [accepted] at edited
    obtain ⟨edited, edited_checks⟩ := Prod.mk.inj (Option.some.inj edited)
    exact ⟨metadata, is_metadata, recognises is_metadata all, s, accepted, edited,
      at_most (Node.wellFormed_of_checks _ edited_checks)⟩
  · let file := Document.parse "@NgModule(\x7bdeclarations:list\x7d)class M\x7b\x7d"
    have file_eq : file = _ := Document.parse_ofList _
    obtain ⟨checked, all, kinds⟩ : file.root.checks file.text = true ∧ recognised file = true ∧
        (metadata? file).map (fun metadata => (metadata.constructs.find? fun property =>
          isDeclarations file.text property.node).map fun property =>
            (property.childOf? .value).map fun value => value.node.kind) =
        some (some (some .identifier)) := by
      rw [file_eq]
      decide +kernel
    obtain ⟨metadata, is_metadata, kinds⟩ := Option.map_eq_some_iff.mp kinds
    obtain ⟨property, first, value_kind⟩ := Option.map_eq_some_iff.mp kinds
    refine (declarationsIn_of_plan "m.ts" (Node.wellFormed_of_checks _ checked) is_metadata
      (recognises is_metadata all)).1 property first fun value is_value => ?_
    rw [is_value] at value_kind
    have is : value.node.kind = .identifier := Option.some.inj value_kind
    rw [is]
    decide

/-- **A property that is taken for absent**: a second property is added behind the shorthand form. -/
theorem declarationsIn_of_shorthand :
    let text := "@NgModule(\x7b declarations \x7d)\nexport class M \x7b\x7d\n"
    let file := Document.parse text
    let added := plan file "AComponent" "./a.component"
    let count (file : Document) :=
      (metadata? file).map fun metadata => declarationsIn file.text metadata.node
    Node.WellFormed file.text file.root ∧ count file = some 1 ∧ added ≠ [] ∧
      ((Session.start "m.ts" text).insertAll (added.map asInsertion)).toOption.map
        (fun s => (s.apply, count (Document.parse s.apply))) =
      some ("import \x7b AComponent \x7d from './a.component';\n@NgModule(\x7b declarations, declarations: [AComponent] \x7d)\nexport class M \x7b\x7d\n", some 2) := by
  intro text file added count
  refine (and_congr_right fun _ => and_assoc).mp ?_
  exact map_apply_of_evaluated
    (fun file => count file = some 1 ∧ plan file "AComponent" "./a.component" ≠ []) count rfl rfl
    (by decide +kernel)

set_option maxRecDepth 4000 in
/-- **A declaration in a comment**: the comment behind the body of the last method is part of the method,
so the new property goes into the comment, and the edited file declares nothing; registering the class
again inserts the property once more. -/
theorem plan_ne_nil_of_comment :
    let text := "@NgModule(\x7b foo() \x7b\x7d // c\n\x7d)\nexport class M \x7b\x7d\n"
    let file := Document.parse text
    let added := plan file "AComponent" "./a.component"
    let count (file : Document) :=
      (metadata? file).map fun metadata => declarationsIn file.text metadata.node
    Node.WellFormed file.text file.root ∧ added ≠ [] ∧
      ((Session.start "m.ts" text).insertAll (added.map asInsertion)).toOption.map
        (fun s => (s.apply, count (Document.parse s.apply),
          (plan (Document.parse s.apply) "AComponent" "./a.component").isEmpty)) =
      some ("import \x7b AComponent \x7d from './a.component';\n@NgModule(\x7b foo() \x7b\x7d // c, declarations: [AComponent]\n\x7d)\nexport class M \x7b\x7d\n",
        some 0, false) := by
  intro text file added count
  exact map_apply_of_evaluated (fun file => plan file "AComponent" "./a.component" ≠ [])
    (fun file => (count file, (plan file "AComponent" "./a.component").isEmpty)) rfl rfl
    (by decide +kernel)

end Component

end ModelGrid
