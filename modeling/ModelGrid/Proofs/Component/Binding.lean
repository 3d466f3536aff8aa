import ModelGrid.Proofs.AngularModule.Header
import ModelGrid.Proofs.Component.Assembly

/-!
# Declared and imported

A class that a registration declares is to be imported as well: a statement at the top of the
edited file binds a value of this name (`binds`).  The declaration and the import are planned apart
from one another, and the import is planned for the first import from the path only.  Where this one
has no names in braces, nothing is added and the class is declared all the same
(`not_binds_of_default`).

Where the imports of the file are lines at its top, whatever follows them, and the first one from
the path admits the class, the class is bound (`binds_of_plan`).

## Main definitions

* `namesOf`: the values that an import statement binds.
* `binds`: whether a file binds a name to a value from a path.

## Main results

* `binds_of_plan`: a class that is declared is imported.
-/

namespace ModelGrid

open Syntax Stretch Edit

namespace AngularModule.Registration

/-! ### What imports bind -/

/-- Whether the word `type` stands at the index among the children, comments left out. -/
def hasKeyword (index : Nat) (n : Node) : Bool :=
  ((n.children.filter fun child => !child.isExtra)[index]?).any fun child =>
    child.kind == .keyword

/-- The name under which a name in braces is bound: the last one, unless it is a type. -/
def nameOf? (text : List Char) (specifier : Node) : Option (List Char) :=
  if hasKeyword 0 specifier then none
  else specifier.constructs.getLast?.map fun name => name.chars text

/-- The names that a part of an import clause binds to values. -/
def namesOfPart (text : List Char) (part : Node) : List (List Char) :=
  match part.kind with
  | .identifier => [part.chars text]
  | .namespaceImport => part.constructs.map fun name => name.chars text
  | .namedImports => part.constructs.filterMap (nameOf? text)
  | _ => []

/-- The names that an import statement binds to values. -/
def namesOf (text : List Char) (statement : Node) : List (List Char) :=
  if hasKeyword 1 statement then []
  else
    statement.constructs.flatMap fun clause =>
      match clause.kind with
      | .importClause => clause.constructs.flatMap (namesOfPart text)
      | .importRequireClause => (clause.constructs.take 1).map fun name => name.chars text
      | _ => []

/-- The path of an import statement, with its quotes. -/
def sourceOf? (statement : Node) : Option Node :=
  (statement :: statement.constructs).findSome? fun n => n.childOf? .source

/-- Whether a statement at the top of the file binds the name to a value from the path. -/
def binds (file : Document) (path symbol : List Char) : Bool :=
  file.root.constructs.any fun statement =>
    statement.kind == .importStatement &&
      (sourceOf? statement).map (fun source => stripQuotes (source.chars file.text)) == some path &&
      (namesOf file.text statement).contains symbol

/-! ### What lines bind -/

variable {cs symbol : List Char} {position : Nat}

/-- The names in braces that go by here are bound. -/
theorem mem_namesOfPart_of_list {list : NameList} (stand : StandAt list.stretches position cs)
    (bound : symbol ∈ list.bound) : symbol ∈ namesOfPart cs (list.node position) := by
  obtain ⟨s, mem, rfl⟩ : ∃ s ∈ Specifier.placed (list.opens position + 1) list.specifiers,
      s.2.bound = symbol := by
    obtain ⟨s, mem, same⟩ := List.mem_map.mp bound
    obtain ⟨placed, placed_mem, rfl⟩ := Specifier.exists_mem_placed (list.opens position + 1) mem
    exact ⟨placed, placed_mem, same⟩
  obtain ⟨last, last_is, chars⟩ :=
    Specifier.exists_constructs_node mem (NameList.standAt_layout position stand)
  have no_type : hasKeyword 0 (s.2.node s.1) = false := rfl
  have specifier : nameOf? cs (s.2.node s.1) = some s.2.bound := by
    rw [nameOf?, no_type, if_neg Bool.false_ne_true, last_is, ← chars]
    rfl
  show s.2.bound ∈ (list.node position).constructs.filterMap (nameOf? cs)
  rw [NameList.constructs_node]
  exact List.mem_filterMap.mpr ⟨_, List.mem_map_of_mem mem, specifier⟩

/-- The names of a clause that go by here are bound. -/
theorem mem_namesOfPart_of_clause {c : Clause} (stand : StandAt c.stretches position cs)
    (bound : symbol ∈ c.bound) :
    ∃ part tail, c.nodes position = .branch .importClause [part] :: tail ∧
      (part.kind.isNamed && !part.isExtra) = true ∧ symbol ∈ namesOfPart cs part := by
  cases c with
  | default before name after =>
    obtain rfl := List.mem_singleton.mp bound
    exact ⟨_, _, rfl, rfl, List.mem_singleton.mpr stand.tail.slice_lexeme.symm⟩
  | all before afterStar afterAs name after =>
    obtain rfl := List.mem_singleton.mp bound
    exact ⟨_, _, rfl, rfl, List.mem_singleton.mpr
      stand.tail.tail.tail.tail.tail.slice_lexeme.symm⟩
  | names list after => exact ⟨_, _, rfl, rfl, mem_namesOfPart_of_list stand.left bound⟩

theorem mem_namesOfPart_of_subject {s : Subject} (stand : StandAt s.stretches position cs)
    (bound : symbol ∈ s.bound) :
    ∃ part tail, s.nodes position = .branch .importClause [part] :: tail ∧
      (part.kind.isNamed && !part.isExtra) = true ∧ symbol ∈ namesOfPart cs part := by
  cases s with
  | nothing => cases bound
  | values clause => exact mem_namesOfPart_of_clause stand bound
  | types => cases bound

/-- The names of a line that go by here are bound. -/
theorem mem_namesOf_node {l : ImportLine} (stand : StandAt l.stretches position cs)
    (bound : symbol ∈ l.subject.bound) : symbol ∈ namesOf cs (l.node position) := by
  obtain ⟨part, tail, nodes, construct, mem⟩ :=
    mem_namesOfPart_of_subject (ImportLine.standAt_subject stand) bound
  let clause := Node.branch .importClause [part]
  have children : (l.node position).children =
      .leaf .keyword (position + Text.size l.front.chars) (l.subjectStart position) :: clause ::
        (tail ++ [l.source position,
          .leaf .semicolon (l.semicolon position) (l.semicolon position + 1)]) := by
    rw [ImportLine.node, ImportLine.nodesUpToPath, nodes]
    simp [Node.branch, Node.children, ImportLine.subjectStart, clause]
  have no_type : hasKeyword 1 (l.node position) = false := by
    rw [hasKeyword, children]
    rfl
  have there : clause ∈ (l.node position).constructs := by
    rw [Node.constructs, children]
    exact List.mem_cons_self
  have constructs : clause.constructs = [part] := by
    show List.filter _ [part] = [part]
    rw [List.filter_singleton, construct]
    rfl
  rw [namesOf, no_type, if_neg Bool.false_ne_true]
  refine List.mem_flatMap.mpr ⟨clause, there, ?_⟩
  show symbol ∈ clause.constructs.flatMap (namesOfPart cs)
  rw [constructs, List.flatMap_singleton]
  exact mem

/-- The path of a line is that of its statement. -/
theorem sourceOf?_node (l : ImportLine) (position : Nat) :
    sourceOf? (l.node position) = some (l.source position) := by
  rw [sourceOf?, List.findSome?_cons, childOf?_source]

/-- Lines at the top of a file bind their names. -/
theorem binds_of_lines {text : String} {lines : List ImportLine} {behind : List Char}
    (eq : text.toList = Stretch.text (ImportLine.layout lines) ++ behind) {l : ImportLine}
    (mem : l ∈ lines) (bound : symbol ∈ l.subject.bound) :
    binds (Document.parse text) l.path symbol = true := by
  obtain ⟨others, children, -⟩ := ImportLine.children_parse eq
  obtain ⟨line, line_mem, rfl⟩ := ImportLine.exists_mem_placed 0 mem
  have stand : StandAt line.2.stretches line.1 (Document.parse text).text := by
    rw [Document.text_parse, eq]
    exact ImportLine.standAt_of_mem_placed line_mem ⟨[], behind, rfl, rfl⟩
  have statement : line.2.node line.1 ∈ (Document.parse text).root.constructs := by
    refine List.mem_filter.mpr ⟨?_, rfl⟩
    rw [children]
    exact List.mem_append_left _ (List.mem_map_of_mem line_mem)
  have path : (sourceOf? (line.2.node line.1)).map
      (fun source => stripQuotes (source.chars (Document.parse text).text)) = some line.2.path := by
    rw [sourceOf?_node, Option.map_some, ImportLine.chars_source stand, stripQuotes_quotedPath]
  refine List.any_eq_true.mpr ⟨line.2.node line.1, statement, ?_⟩
  rw [path, List.contains_iff_mem.mpr (mem_namesOf_node stand bound), beq_self_eq_true]
  rfl

end AngularModule.Registration

namespace Component

open AngularModule AngularModule.Registration

/-- **A class that is declared is imported**, where the imports of the file are lines at its top and
the first one from the path admits the class. -/
theorem binds_of_plan {text className importPath : String} {lines : List ImportLine}
    {behind : List Char} (path : String)
    (eq : text.toList = Stretch.text (ImportLine.layout lines) ++ behind)
    (all : (imports (Document.parse text)).length = lines.length)
    (wellFormed : Node.WellFormed (Document.parse text).text (Document.parse text).root)
    (word : Lexeme.IsWord className.toList) (plain : IsPlainPath importPath.toList)
    (admits : ∀ l, lines.find? (fun l => l.path == importPath.toList) = some l →
      l.Admits className.toList)
    (planned : plan (Document.parse text) className importPath ≠ []) :
    ∃ s, (Session.start path text).insertAll
        ((plan (Document.parse text) className importPath).map asInsertion) = .ok s ∧
      binds (Document.parse s.apply) importPath.toList className.toList = true := by
  obtain ⟨front, added, back, more, lines', before, after, ⟨l, mem, path_eq, bound⟩, addition⟩ :=
    leavesImport eq all word plain admits
  obtain ⟨first, first_mem⟩ := List.exists_mem_of_ne_nil _ planned
  obtain ⟨decorator, metadata, in_file, is_metadata, declaration, declared, plan_eq⟩ :=
    mem_plan first_mem
  have behind_lines := lt_offset_of_declarationAddition? eq wellFormed in_file is_metadata declared
  rw [before, Text.size_append] at behind_lines
  obtain ⟨s, accepted⟩ := exists_insertAll_of_plan path wellFormed (Document.text_parse text).symm
    fun _ mem => mem
  obtain ⟨snapshot, insertions⟩ := Session.insertAll_eq_ok accepted
  refine ⟨s, accepted, ?_⟩
  -- only the import is inserted in front of the declaration
  obtain ⟨apart, inserted⟩ :
      (∀ i ∈ (plan (Document.parse text) className importPath).map asInsertion,
        i.offset = Text.size front ∨ Text.size front + Text.size back < i.offset) ∧
      Session.textsAt ((plan (Document.parse text) className importPath).map asInsertion)
        (Text.size front) = added := by
    have ne : (asInsertion declaration).offset ≠ Text.size front := by
      show declaration.offset ≠ _
      omega
    have declaration_behind : Text.size front + Text.size back < (asInsertion declaration).offset :=
      behind_lines
    rw [plan_eq]
    rcases addition with ⟨none, rfl⟩ | some
    · rw [none]
      refine ⟨List.forall_mem_singleton.mpr (.inr declaration_behind), ?_⟩
      exact Session.textsAt_eq_nil (List.forall_mem_singleton.mpr ne)
    · rw [some]
      refine ⟨List.forall_mem_cons.mpr ⟨.inr declaration_behind,
        List.forall_mem_singleton.mpr (.inl rfl)⟩, ?_⟩
      refine (Session.textsAt_cons_of_ne ne).trans ?_
      simp [Session.textsAt, asInsertion]
  obtain ⟨later, layout⟩ := Session.exists_layoutFrom_append apart behind
  have edited : s.apply.toList =
      Stretch.text (ImportLine.layout lines') ++ (more ++ later) := by
    rw [Session.apply, Session.edited?_eq_layout, Option.getD_some, Session.layout,
      String.toList_ofList, snapshot, insertions]
    show Session.layoutFrom ([] ++ _) 0 text.toList = _
    rw [List.nil_append, eq, before, layout, inserted, after, List.append_assoc]
  rw [← path_eq]
  exact binds_of_lines edited mem bound

/-- Imports of types, and another name in braces from the path of the class. -/
theorem binds_of_plan_renamed :
    let text := "import type T from \"t\";\nimport\x7bB as C,\x7dfrom'a';@NgModule(\x7b\x7d)class M\x7b\x7d"
    let file := Document.parse text
    plan file "A" "a" ≠ [] ∧
    ∃ s, (Session.start "m.ts" text).insertAll ((plan file "A" "a").map asInsertion) = .ok s ∧
      binds (Document.parse s.apply) "a".toList "A".toList = true := by
  intro text file
  let t : ImportLine :=
    ⟨.nothing, .types .single (.default .single
      ⟨['T'], by decide, Keyword.ofChars?_eq_none List.mem_cons_self rfl⟩ .single), .single, '"',
      .inr rfl, ['t'], by decide, .nothing⟩
  let names : NameList :=
    ⟨.nothing, [⟨.nothing, ['B'], by decide, some ⟨.single, .single,
      ⟨['C'], by decide, Keyword.ofChars?_eq_none List.mem_cons_self rfl⟩⟩, .nothing, true⟩],
      List.forall_mem_nil _, .nothing⟩
  let a : ImportLine :=
    ⟨.lineFeed, .values (.names names .nothing), .nothing, '\'', .inl rfl, ['a'], by decide,
      .nothing⟩
  have eq : text.toList = Stretch.text (ImportLine.layout [t, a]) ++
      "@NgModule(\x7b\x7d)class M\x7b\x7d".toList := by
    rw [String.toList_ofList, String.toList_ofList]
    rfl
  have file_eq : file = _ := Document.parse_ofList _
  have checked : file.root.checks file.text = true ∧ plan file "A" "a" ≠ [] := by
    rw [file_eq]
    decide +kernel
  have admits : ∀ l, [t, a].find? (fun l => l.path == ['a']) = some l → l.Admits ['A'] := by
    rintro l ⟨⟩
    exact ⟨names, .nothing, rfl, by decide⟩
  exact ⟨checked.2, binds_of_plan "m.ts" eq (by decide +kernel) (Node.wellFormed_of_checks _ checked.1)
    (by decide) (by decide) admits checked.2⟩

/-- What a registration makes of a text is found in one evaluation. -/
theorem map_apply_of_evaluated {α : Type*} {path text edited className importPath : String}
    {chars chars' : List Char} {a : α} (P : Document → Prop) (read : Document → α)
    (text_eq : text = String.ofList chars) (edited_eq : edited = String.ofList chars')
    (evaluated :
      let file := Document.ofChars chars
      let calls := (plan file className importPath).map asInsertion
      file.root.checks file.text = true ∧ P file ∧
        calls.all (fun i => Text.IsBoundary chars i.offset) = true ∧
        Session.layoutFrom calls 0 chars = chars' ∧ read (Document.ofChars chars') = a) :
    let file := Document.parse text
    Node.WellFormed file.text file.root ∧ P file ∧
      ((Session.start path text).insertAll
          ((plan file className importPath).map asInsertion)).toOption.map
        (fun s => (s.apply, read (Document.parse s.apply))) = some (edited, a) := by
  rw [text_eq, edited_eq, Document.parse_ofList]
  obtain ⟨checked, holds, boundary, laid, is⟩ := evaluated
  refine ⟨Node.wellFormed_of_checks _ checked, holds,
    Session.map_apply_of_layout (fun text => read (Document.parse text)) boundary laid ?_⟩
  rw [Document.parse_ofList, is]

/-- **Declared and not imported**: nothing is added to a default import. -/
theorem not_binds_of_default :
    let text := "import D from './a.component';\n@NgModule(\x7b declarations: [] \x7d)\nexport class M \x7b\x7d\n"
    let file := Document.parse text
    let added := plan file "AComponent" "./a.component"
    Node.WellFormed file.text file.root ∧ added ≠ [] ∧
      ((Session.start "m.ts" text).insertAll (added.map asInsertion)).toOption.map
        (fun s => (s.apply, binds (Document.parse s.apply) "./a.component".toList
          "AComponent".toList)) =
      some ("import D from './a.component';\n@NgModule(\x7b declarations: [AComponent] \x7d)\nexport class M \x7b\x7d\n", false) :=
  map_apply_of_evaluated (fun file => plan file "AComponent" "./a.component" ≠ [])
    (fun file => binds file "./a.component".toList "AComponent".toList) rfl rfl (by decide +kernel)

end Component

end ModelGrid
