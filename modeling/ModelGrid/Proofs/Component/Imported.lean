import ModelGrid.Proofs.Component.Binding

/-!
# What import statements import

An import statement binds a default, a namespace or names, takes them from its source, and may have
attributes that say how the source is to be read.  This is read off the tree of a file, of all
statements at its top in order, so that two files can be compared.

Of a file that begins with import lines, behind which there is no word `import`, it is what the lines
say (`importedBy_of_lines`).  And an import that is added to lines adds a name or a statement to what
they import (`Added.registers`).

## Main definitions

* `Imported`: what a statement imports.
* `importedBy`: what the statements at the top of a file import.
* `Registers`: the imports of a file with those in which a symbol is registered.

## Main results

* `importedBy_of_lines`: what is imported by a file that begins with import lines.
-/

namespace ModelGrid

open Syntax Stretch

namespace AngularModule.Registration

/-! ### Statements -/

/-- A name in the braces of an import. -/
structure ImportedName where
  /-- Whether it goes by its name here in types only. -/
  type : Bool
  /-- The name in the file that it comes from. -/
  name : List Char
  /-- The name that it goes by here. -/
  bound : List Char
  deriving DecidableEq

/-- What an import statement imports. -/
@[ext] structure Imported where
  /-- Whether all of it goes by its names in types only. -/
  types : Bool
  default : Option (List Char)
  /-- The name that all exports go by together. -/
  all : Option (List Char)
  /-- The names in braces, if there are braces. -/
  names : Option (List ImportedName)
  /-- The path with its quotes. -/
  source : List Char
  attributes : Option (List Char)
  deriving DecidableEq

/-- The path without quotes. -/
def Imported.path (i : Imported) : List Char := stripQuotes i.source

/-- A name in braces, as it is written. -/
def importedName (text : List Char) (specifier : Node) : ImportedName where
  type := hasKeyword 0 specifier
  name := ((specifier.childOf? .name).map fun n => n.chars text).getD []
  bound := (specifier.constructs.getLast?.map fun n => n.chars text).getD []

/-- The first part of the kind in the clause of an import statement. -/
def partOf? (kind : Kind) (statement : Node) : Option Node :=
  let clauses := statement.constructs.filter fun n =>
    n.kind == .importClause || n.kind == .importRequireClause
  (clauses.flatMap Node.constructs).find? fun n => n.kind == kind

/-- What a statement imports. -/
def imported (text : List Char) (statement : Node) : Imported where
  types := hasKeyword 1 statement
  default := (partOf? .identifier statement).map fun n => n.chars text
  all := (partOf? .namespaceImport statement).bind fun part =>
    part.constructs.head?.map fun n => n.chars text
  names := (partOf? .namedImports statement).map fun part =>
    part.constructs.map (importedName text)
  source := ((sourceOf? statement).map fun n => n.chars text).getD []
  attributes := (statement.constructs.find? fun n => n.kind == .importAttribute).map fun n =>
    n.chars text

/-- What the import statements at the top of a file import, in order. -/
def importedBy (file : Document) : List Imported :=
  (file.root.constructs.filter fun n => n.kind == .importStatement).map (imported file.text)

end AngularModule.Registration

namespace Syntax

open AngularModule.Registration

/-! ### Lines -/

/-- A name in braces as it is imported. -/
def Specifier.imported (s : Specifier) : ImportedName := ⟨false, s.name, s.bound⟩

/-- What a clause imports, without the path. -/
def Clause.imported (types : Bool) (source : List Char) : Clause → Imported
  | default _ name _ => ⟨types, some name.chars, none, none, source, none⟩
  | all _ _ _ name _ => ⟨types, none, some name.chars, none, source, none⟩
  | names list _ => ⟨types, none, none, some (list.specifiers.map Specifier.imported), source, none⟩

/-- What a line imports. -/
def ImportLine.imported (l : ImportLine) : Imported :=
  match l.subject with
  | .nothing => ⟨false, none, none, none, l.quotedPath, none⟩
  | .values clause => clause.imported false l.quotedPath
  | .types _ clause => clause.imported true l.quotedPath

end Syntax

namespace AngularModule.Registration

variable {cs : List Char} {position : Nat}

theorem map_importedName_constructs {list : NameList} (stand : StandAt list.stretches position cs) :
    (list.node position).constructs.map (importedName cs) =
      list.specifiers.map Specifier.imported := by
  rw [NameList.constructs_node, List.map_map]
  have names := congrArg (List.map Specifier.imported)
    (Specifier.map_placed (list.opens position + 1) list.specifiers)
  rw [List.map_map] at names
  rw [← names]
  refine List.map_congr_left fun s mem => ?_
  have layout := NameList.standAt_layout position stand
  obtain ⟨last, last_is, bound⟩ := Specifier.exists_constructs_node mem layout
  have name := Specifier.childOf?_node mem layout
  have no_type : hasKeyword 0 (s.2.node s.1) = false := rfl
  simp [importedName, Specifier.imported, no_type, name, last_is, bound]

/-- What a line imports is what its statement does. -/
theorem imported_node {l : ImportLine} (stand : StandAt l.stretches position cs) :
    imported cs (l.node position) = l.imported := by
  have source : ((sourceOf? (l.node position)).map fun n => n.chars cs) = some l.quotedPath := by
    rw [sourceOf?_node, Option.map_some, ImportLine.chars_source stand]
  have subject_stand := ImportLine.standAt_subject stand
  obtain ⟨front, subject, beforePath, quote, isQuote, path, plain, afterPath⟩ := l
  have source' := congrArg (Option.getD · []) source
  rcases subject with _ | clause | ⟨before, clause⟩
  · exact Imported.ext rfl rfl rfl rfl source' rfl
  · cases clause with
    | default =>
      have name := congrArg some subject_stand.tail.slice_lexeme
      exact Imported.ext rfl name rfl rfl source' rfl
    | all =>
      have name := congrArg some subject_stand.tail.tail.tail.tail.tail.slice_lexeme
      exact Imported.ext rfl rfl name rfl source' rfl
    | names =>
      have names := congrArg some (map_importedName_constructs subject_stand.left)
      exact Imported.ext rfl rfl rfl names source' rfl
  · -- the word `type` stands in front of the clause
    have clause_stand := subject_stand.tail.tail
    cases clause with
    | default =>
      have name := congrArg some clause_stand.tail.slice_lexeme
      exact Imported.ext rfl name rfl rfl source' rfl
    | all =>
      have name := congrArg some clause_stand.tail.tail.tail.tail.tail.slice_lexeme
      exact Imported.ext rfl rfl name rfl source' rfl
    | names =>
      have names := congrArg some (map_importedName_constructs clause_stand.left)
      exact Imported.ext rfl rfl rfl names source' rfl

/-- **What is imported by a file that begins with import lines** is what the lines say, if the word
`import` is not behind them. -/
theorem importedBy_of_lines {text : String} {lines : List ImportLine} {behind : List Char}
    (eq : text.toList = Stretch.text (ImportLine.layout lines) ++ behind)
    (lacks : Lexeme.LacksImport behind) :
    importedBy (Document.parse text) = lines.map ImportLine.imported := by
  obtain ⟨others, children, no_more⟩ := ImportLine.children_parse eq
  have is_line : ∀ n ∈ ImportLine.nodes 0 lines,
      (n.kind == .importStatement && (n.kind.isNamed && !n.isExtra)) = true := by
    intro n mem
    obtain ⟨line, -, rfl⟩ := List.mem_map.mp mem
    rfl
  have is_other : others.filter
      (fun n => n.kind == .importStatement && (n.kind.isNamed && !n.isExtra)) = [] := by
    refine List.filter_eq_nil_iff.mpr fun n mem is => ?_
    have other := no_more lacks n mem
    rw [beq_iff_eq.mp (Bool.and_eq_true_iff.mp is).1] at other
    cases other
  have stand : StandAt (ImportLine.layout lines) 0 (Document.parse text).text := by
    rw [Document.text_parse, eq]
    exact ⟨[], behind, rfl, rfl⟩
  have placed := congrArg (List.map ImportLine.imported) (ImportLine.map_placed 0 lines)
  rw [List.map_map] at placed
  rw [importedBy, Node.constructs, children, List.filter_filter, List.filter_append,
    List.filter_eq_self.mpr is_line, is_other, List.append_nil, ImportLine.nodes, List.map_map,
    ← placed]
  refine List.map_congr_left fun line mem => ?_
  exact imported_node (ImportLine.standAt_of_mem_placed mem stand)

/-! ### A symbol that is registered -/

section Registers

variable {symbol path : List Char}

/-- The statement that imports a symbol. -/
def Imported.own (symbol path : List Char) : Imported where
  types := false
  default := none
  all := none
  names := some [⟨false, symbol, symbol⟩]
  source := '\'' :: path ++ ['\'']
  attributes := none

/-- The imports of a file with those in which a symbol from a path is registered: the first import
from the path has one name more; or, where there is none, a statement stands behind the others; or
all stay as they are, since the first import from the path has the symbol or has no braces. -/
inductive Registers (symbol path : List Char) : List Imported → List Imported → Prop
  | kept {old : List Imported} {i : Imported} (first : old.find? (fun i => i.path == path) = some i)
      (full : ∀ names, i.names = some names → symbol ∈ names.map ImportedName.name) :
      Registers symbol path old old
  | name {front back : List Imported} {i : Imported} {names : List ImportedName}
      (others : ∀ j ∈ front, j.path ≠ path) (from_path : i.path = path)
      (named : i.names = some names) (lacks : symbol ∉ names.map ImportedName.name) :
      Registers symbol path (front ++ i :: back)
        (front ++ { i with names := some (names ++ [⟨false, symbol, symbol⟩]) } :: back)
  | own {old : List Imported} (others : ∀ i ∈ old, i.path ≠ path) :
      Registers symbol path old (old ++ [.own symbol path])

theorem path_imported (l : ImportLine) : l.imported.path = l.path := by
  have source : l.imported.source = l.quotedPath := by
    rw [ImportLine.imported]
    rcases l.subject with _ | clause | ⟨_, clause⟩
    · rfl
    all_goals cases clause <;> rfl
  rw [Imported.path, source, stripQuotes_quotedPath]

theorem names_imported (l : ImportLine) :
    l.imported.names = l.subject.list?.map fun list => list.specifiers.map Specifier.imported := by
  rw [ImportLine.imported]
  rcases l.subject with _ | clause | ⟨_, clause⟩
  · rfl
  all_goals cases clause <;> rfl

theorem map_imported_extend (word : Lexeme.IsWord symbol) (specifiers : List Specifier) :
    (Specifier.extend word specifiers).map Specifier.imported =
      specifiers.map Specifier.imported ++ [⟨false, symbol, symbol⟩] := by
  rcases List.eq_nil_or_concat' specifiers with rfl | ⟨front, last, rfl⟩
  · rfl
  · rw [Specifier.extend_concat, List.map_append, List.map_append, List.append_assoc]
    rfl

/-- A line with one more name imports one more. -/
theorem imported_withName {l : ImportLine} {list : NameList} (named : l.subject.list? = some list)
    (word : Lexeme.IsWord symbol) :
    (l.withName word).imported =
      { l.imported with
        names := some (list.specifiers.map Specifier.imported ++ [⟨false, symbol, symbol⟩]) } := by
  have names := congrArg some (map_imported_extend word list.specifiers)
  obtain ⟨front, subject, beforePath, quote, isQuote, path, plain, afterPath⟩ := l
  rcases subject with _ | clause | ⟨before, clause⟩
  · cases named
  all_goals
    cases clause with
    | names list' after =>
      cases named
      exact Imported.ext rfl rfl rfl names rfl rfl
    | _ => cases named

/-- **An import that is added to lines** is registered among what they import. -/
theorem Added.registers {word : Lexeme.IsWord symbol} {plain : IsPlainPath path}
    {lines lines' : List ImportLine} (added : Added word plain lines lines') :
    Registers symbol path (lines.map ImportLine.imported) (lines'.map ImportLine.imported) := by
  have same : (fun i : Imported => i.path == path) ∘ ImportLine.imported =
      fun l => l.path == path := funext fun l => by rw [Function.comp_apply, path_imported]
  have lacking {ls : List ImportLine} (others : ∀ k ∈ ls, k.path ≠ path) :
      ∀ i ∈ ls.map ImportLine.imported, i.path ≠ path :=
    List.forall_mem_map.mpr fun k mem => by rw [path_imported]; exact others k mem
  have names_of (list : NameList) :
      (list.specifiers.map Specifier.imported).map ImportedName.name = list.names := by
    rw [List.map_map]
    rfl
  cases added with
  | @kept lines l first full =>
    refine .kept (i := l.imported) ?_ fun names named => ?_
    · rw [List.find?_map, same, first]
      rfl
    · rw [names_imported] at named
      obtain ⟨list, is_list, rfl⟩ := Option.map_eq_some_iff.mp named
      rw [names_of]
      exact full list is_list
  | @name init rest l list others from_path named lacks =>
    have names : l.imported.names = some (list.specifiers.map Specifier.imported) := by
      rw [names_imported, named]
      rfl
    rw [List.map_append, List.map_append, List.map_cons, List.map_cons, imported_withName named]
    exact .name (lacking others) ((path_imported l).trans from_path) names
      (by rw [names_of]; exact lacks)
  | first =>
    show Registers symbol path [] ([] ++ [Imported.own symbol path])
    exact .own (List.forall_mem_nil _)
  | @last init l others =>
    have whole : (init ++ [{ l with afterPath := .nothing },
        .ofName word plain .lineFeed l.afterPath]).map ImportLine.imported =
        (init ++ [l]).map ImportLine.imported ++ [Imported.own symbol path] := by
      rw [List.map_append, List.map_append, List.append_assoc]
      rfl
    rw [whole]
    exact .own (lacking others)

end Registers

end AngularModule.Registration

end ModelGrid
