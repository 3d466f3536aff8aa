import ModelGrid.Proofs.AngularModule.Position
import ModelGrid.Proofs.Syntax.ImportHead

/-!
# Imports at the top of a module file

A module file that begins with import lines, which are all its imports, is one whose imports are
known: they are those of the lines, in order (`imports_of_lines`).  They are all its imports if the
word `import` is not behind them (`length_imports_of_lines`).  An import that is added to such a file
is one more name in the first line from its path, or one more line, so the edited text begins with
such lines again (`leavesLines`), one of which binds the name if this line admits it
(`leavesImport`).

## Main definitions

* `IsImportOf`: the import is that of a line.
* `NameList.withName`, `ImportLine.ofName`: one more name in braces, and a line for a name.
* `Added`: lines, and those with an import added to them.
* `LeavesLines`: an addition leaves import lines with the import added to them.
* `ImportLine.Admits`: the line can take the name.
* `LeavesImport`: an addition leaves import lines, one of which binds the name.

## Main results

* `imports_of_lines`: the imports of a file that begins with import lines.
* `leavesLines`, `leavesImport`: what the addition that is planned for an import leaves.
* `lt_offset_of_declarationAddition?`: the class is declared behind the lines.
-/

namespace ModelGrid

open Syntax Stretch

namespace Syntax

/-! ### Lines with one more name -/

namespace Specifier

variable {symbol : List Char} (word : Lexeme.IsWord symbol)

/-- A name that goes by itself, behind a blank. -/
def ofName (after : Blank) (comma : Bool) : Specifier where
  before := .single
  name := symbol
  isWord := word
  renamed := none
  after
  comma

/-- One more name, behind those there are. -/
def extend (specifiers : List Specifier) : List Specifier :=
  match specifiers.getLast? with
  | none => [ofName word .single false]
  | some last =>
    specifiers.dropLast ++
      [{ last with after := .nothing, comma := true }, ofName word last.after last.comma]

theorem extend_concat (front : List Specifier) (last : Specifier) :
    extend word (front ++ [last]) =
      front ++ [{ last with after := .nothing, comma := true },
        ofName word last.after last.comma] := by
  rw [extend, List.getLast?_concat, List.dropLast_concat]

theorem separated_extend {specifiers : List Specifier} (separated : Separated specifiers) :
    Separated (extend word specifiers) := by
  rcases List.eq_nil_or_concat' specifiers with rfl | ⟨front, last, rfl⟩
  · exact List.forall_mem_nil _
  · rw [extend_concat]
    have front_separated : ∀ s ∈ front, s.comma = true := by
      intro s mem
      exact separated s (by rwa [List.dropLast_concat])
    intro s mem
    have shorter (a b : Specifier) : (front ++ [a, b]).dropLast = front ++ [a] := by
      rw [show front ++ [a, b] = front ++ [a] ++ [b] by simp, List.dropLast_concat]
    rw [shorter] at mem
    rcases List.mem_append.mp mem with mem | mem
    · exact front_separated s mem
    · rw [List.mem_singleton.mp mem]

end Specifier

namespace NameList

variable {symbol : List Char}

/-- The names in the file that they come from. -/
def names (l : NameList) : List (List Char) :=
  l.specifiers.map Specifier.name

/-- The names that go by here. -/
def bound (l : NameList) : List (List Char) :=
  l.specifiers.map Specifier.bound

/-- The names with one more. -/
def withName (word : Lexeme.IsWord symbol) (l : NameList) : NameList :=
  { l with
    specifiers := Specifier.extend word l.specifiers
    separated := Specifier.separated_extend word l.separated }

theorem mem_bound_withName (l : NameList) (word : Lexeme.IsWord symbol) :
    symbol ∈ (l.withName word).bound := by
  show symbol ∈ (Specifier.extend word l.specifiers).map Specifier.bound
  rw [Specifier.extend]
  split <;> simp [Specifier.bound, Specifier.ofName]

end NameList

/-- The names in braces, if there are braces. -/
def Clause.list? : Clause → Option NameList
  | names list _ => some list
  | _ => none

/-- The names in braces with one more. -/
def Clause.withName {symbol : List Char} (word : Lexeme.IsWord symbol) : Clause → Clause
  | names list after => names (list.withName word) after
  | clause => clause

/-- The names in braces, if there are braces. -/
def Subject.list? : Subject → Option NameList
  | nothing => none
  | values clause => clause.list?
  | types _ clause => clause.list?

/-- Where the clause is, in a line whose first word ends at the position. -/
def Subject.clauseStart (position : Nat) : Subject → Nat
  | types before _ => position + Text.size before.chars + 4
  | _ => position

/-- The names in braces with one more. -/
def Subject.withName {symbol : List Char} (word : Lexeme.IsWord symbol) : Subject → Subject
  | nothing => nothing
  | values clause => values (clause.withName word)
  | types before clause => types before (clause.withName word)

/-- Around its names in braces, what a line takes stays as it is. -/
theorem Subject.exists_text_withName {symbol : List Char} {s : Subject} {list : NameList}
    (named : s.list? = some list) (word : Lexeme.IsWord symbol) :
    ∃ front back : List Char,
      Stretch.text s.stretches = front ++ Stretch.text list.stretches ++ back ∧
      Stretch.text (s.withName word).stretches =
        front ++ Stretch.text (list.withName word).stretches ++ back ∧
      ∀ position, s.clauseStart position = position + Text.size front := by
  have clause {c : Clause} (named : c.list? = some list) : ∃ back : List Char,
      Stretch.text c.stretches = Stretch.text list.stretches ++ back ∧
      Stretch.text (c.withName word).stretches =
        Stretch.text (list.withName word).stretches ++ back := by
    cases c with
    | names list' after =>
      obtain rfl : list' = list := Option.some.inj named
      exact ⟨Stretch.text [.space after.chars, .key .fromWord "from"],
        Stretch.text_append _ _, Stretch.text_append _ _⟩
    | _ => cases named
  cases s with
  | nothing => cases named
  | values c =>
    obtain ⟨back, text, text'⟩ := clause named
    exact ⟨[], back, text, text', fun _ => rfl⟩
  | types before c =>
    obtain ⟨back, text, text'⟩ := clause named
    have size : Text.size (before.chars ++ "type".toList) = Text.size before.chars + 4 :=
      Text.size_append _ _
    refine ⟨before.chars ++ "type".toList, back, ?_, ?_, fun position => ?_⟩
    · simp [stretches, text, chars, Stretch.key]
    · simp [withName, stretches, text', chars, Stretch.key]
    · rw [size, ← Nat.add_assoc]
      rfl

/-- The names that go by here. -/
def Clause.bound : Clause → List (List Char)
  | default _ name _ => [name.chars]
  | all _ _ _ name _ => [name.chars]
  | names list _ => list.bound

/-- The names of values that go by here. -/
def Subject.bound : Subject → List (List Char)
  | nothing => []
  | values clause => clause.bound
  | types _ _ => []

namespace ImportLine

variable {symbol path : List Char}

/-- The line has names of values in braces, and if the symbol is one of them, then under its own
name. -/
def Admits (symbol : List Char) (l : ImportLine) : Prop :=
  ∃ list after, l.subject = .values (.names list after) ∧
    (symbol ∈ list.names → symbol ∈ list.bound)

/-- The line with one more name in its braces. -/
def withName (word : Lexeme.IsWord symbol) (l : ImportLine) : ImportLine :=
  { l with subject := l.subject.withName word }

/-- Around its names in braces, a line stays as it is. -/
theorem exists_text_withName {l : ImportLine} {list : NameList} (named : l.subject.list? = some list)
    (word : Lexeme.IsWord symbol) :
    ∃ front back : List Char,
      Stretch.text l.stretches = front ++ Stretch.text list.stretches ++ back ∧
      Stretch.text (l.withName word).stretches =
        front ++ Stretch.text (list.withName word).stretches ++ back ∧
      ∀ position, l.subject.clauseStart (l.subjectStart position) = position + Text.size front := by
  obtain ⟨front, back, text, text', start⟩ := Subject.exists_text_withName named word
  let tail := Stretch.text (.space l.beforePath.chars :: .lexeme .string l.quotedPath :: l.ending)
  refine ⟨Stretch.text l.opening ++ front, back ++ tail, ?_, ?_, fun position => ?_⟩
  · simp [stretches, upToPath, text, tail]
  · have parts : (l.withName word).stretches = l.opening ++ (l.subject.withName word).stretches ++
        [Stretch.space l.beforePath.chars, .lexeme .string l.quotedPath] ++ l.ending := rfl
    simp [parts, text', tail]
  · rw [start, subjectStart_eq, Text.size_append, Nat.add_assoc]

/-- The names in braces stand in their clause. -/
theorem standAt_list {l : ImportLine} {list : NameList} {cs : List Char} {position : Nat}
    (named : l.subject.list? = some list) (stand : StandAt l.stretches position cs) :
    StandAt list.stretches (l.subject.clauseStart (l.subjectStart position)) cs := by
  have subject_stand := standAt_subject stand
  obtain ⟨_, subject⟩ := l
  rcases subject with _ | clause | ⟨_, clause⟩
  · cases named
  · cases clause with
    | names =>
      cases named
      exact subject_stand.left
    | _ => cases named
  · cases clause with
    | names =>
      cases named
      exact subject_stand.tail.tail.left
    | _ => cases named

/-- A line of its own for a name. -/
def ofName (word : Lexeme.IsWord symbol) (plain : IsPlainPath path) (front afterPath : Blank) :
    ImportLine where
  front
  subject := .values
    (.names ⟨.single, [Specifier.ofName word .single false], List.forall_mem_nil _, .nothing⟩
      .single)
  beforePath := .single
  quote := '\''
  isQuote := .inl rfl
  path
  plain
  afterPath

end ImportLine

end Syntax

namespace AngularModule.Registration

open Syntax.Place

variable {file : Document} {place group : Place} {position : Nat} {l : ImportLine}
  {symbol path : List Char}

/-! ### The import of a line -/

theorem dropWhile_isQuote {cs : List Char} (plain : ∀ c ∈ cs, isQuote c = false) :
    cs.dropWhile isQuote = cs := by
  cases cs with
  | nil => rfl
  | cons c rest => rw [List.dropWhile_cons, plain c List.mem_cons_self, if_neg Bool.false_ne_true]

/-- The path that is read is the one between the quotes. -/
theorem stripQuotes_quotedPath (l : ImportLine) : stripQuotes l.quotedPath = l.path := by
  have quote : isQuote l.quote = true := by
    rcases l.isQuote with is | is <;> rw [is] <;> rfl
  have plain : ∀ c ∈ l.path, isQuote c = false := by
    intro c mem
    have other := l.plain c mem
    simp only [List.mem_cons, List.not_mem_nil, or_false, not_or] at other
    simp [isQuote, other]
  rw [stripQuotes, ImportLine.quotedPath, List.cons_append, List.dropWhile_cons, if_pos quote]
  cases path : l.path with
  | nil => simp [quote]
  | cons c cs =>
    rw [path] at plain
    have first : (c :: cs ++ [l.quote]).dropWhile isQuote = c :: cs ++ [l.quote] := by
      rw [List.cons_append, List.dropWhile_cons, plain c List.mem_cons_self,
        if_neg Bool.false_ne_true]
    have last : (c :: cs).reverse.dropWhile isQuote = (c :: cs).reverse :=
      dropWhile_isQuote fun d mem => plain d (List.mem_reverse.mp mem)
    rw [first, List.reverse_append, List.reverse_singleton, List.singleton_append,
      List.dropWhile_cons, if_pos quote, last, List.reverse_reverse]

/-- The import is that of a line that begins at the position. -/
structure IsImportOf (found : Import) (position : Nat) (l : ImportLine) : Prop where
  path : found.path = l.path
  source : found.source.node = l.source position
  named : found.named.map node =
    l.subject.list?.map (NameList.node (l.subject.clauseStart (l.subjectStart position)))

theorem childOf?_source (l : ImportLine) (position : Nat) :
    (l.node position).childOf? .source = some (l.source position) := by
  obtain ⟨_, subject⟩ := l
  rcases subject with _ | clause | ⟨_, clause⟩
  · rfl
  all_goals cases clause <;> rfl

/-- The names in braces of a line are a part of its clause. -/
theorem find?_constructs_node (l : ImportLine) (position : Nat) :
    ((l.node position).constructs.find? fun n => n.kind == .importClause).bind
        (fun clause => clause.constructs.find? fun n => n.kind == .namedImports) =
      l.subject.list?.map (NameList.node (l.subject.clauseStart (l.subjectStart position))) := by
  obtain ⟨_, subject⟩ := l
  rcases subject with _ | clause | ⟨_, clause⟩
  · rfl
  all_goals cases clause <;> rfl

theorem map_node_find?_constructs (place : Place) (kind : Kind) :
    (place.constructs.find? fun child => child.node.kind == kind).map node =
      place.node.constructs.find? fun n => n.kind == kind := by
  rw [← map_node_constructs, List.find?_map]
  rfl

/-- A line is an import. -/
theorem importOf?_of_line (is : place.node = l.node position)
    (stand : StandAt l.stretches position file.text) :
    ∃ found, importOf? file place = some found ∧ IsImportOf found position l := by
  have kind : (place.node.kind == .importStatement) = true := by
    rw [is]
    rfl
  have source_node : (place.childOf? .source).map node = some (l.source position) := by
    rw [map_node_childOf?, is, childOf?_source]
  obtain ⟨source, source_found, source_is⟩ := Option.map_eq_some_iff.mp source_node
  have path : stripQuotes (file.charsOf source) = l.path := by
    rw [Document.charsOf, source_is, ImportLine.chars_source stand, stripQuotes_quotedPath]
  let clause := place.constructs.find? fun child => child.node.kind == .importClause
  let named := clause.bind fun clause =>
    clause.constructs.find? fun child => child.node.kind == .namedImports
  refine ⟨⟨source, named, l.path⟩, ?_, rfl, source_is, ?_⟩
  · simp [importOf?, kind, source_found, path, named, clause]
  · have clause_node : clause.map node =
        (l.node position).constructs.find? fun n => n.kind == .importClause := by
      rw [map_node_find?_constructs, is]
    calc named.map node
        = clause.bind fun clause => clause.node.constructs.find? fun n => n.kind == .namedImports := by
          rw [Option.map_bind]
          exact congrArg clause.bind (funext fun c => map_node_find?_constructs c .namedImports)
      _ = (clause.map node).bind fun n => n.constructs.find? fun n => n.kind == .namedImports := by
          rw [Option.bind_map]
          rfl
      _ = _ := by rw [clause_node, find?_constructs_node]

variable {list : NameList}

/-- The names in braces are the names of the list. -/
theorem map_constructs_group (is : group.node = list.node position)
    (stand : StandAt list.stretches position file.text) :
    (group.constructs.map fun specifier => (specifier.childOf? .name).map file.charsOf) =
      list.names.map some := by
  calc (group.constructs.map fun specifier => (specifier.childOf? .name).map file.charsOf)
      = (group.constructs.map node).map fun n =>
          (n.childOf? .name).map fun x => x.chars file.text := by
        rw [List.map_map]
        refine List.map_congr_left fun specifier _ => ?_
        rw [Function.comp_apply, ← map_node_childOf?, Option.map_map]
        rfl
    _ = (Specifier.placed (list.opens position + 1) list.specifiers).map fun s => some s.2.name := by
        rw [map_node_constructs, is, NameList.constructs_node, List.map_map]
        exact List.map_congr_left fun s mem =>
          Specifier.childOf?_node mem (NameList.standAt_layout position stand)
    _ = list.names.map some := by
        rw [NameList.names,
          ← congrArg (List.map Specifier.name) (Specifier.map_placed (list.opens position + 1) _)]
        simp

theorem importsName_eq (is : group.node = list.node position)
    (stand : StandAt list.stretches position file.text) (symbol : List Char) :
    importsName file group symbol = list.names.contains symbol := by
  have names := map_constructs_group is stand
  have any := congrArg (List.any · (· == some symbol)) names
  rw [List.any_map, List.any_map] at any
  rw [List.contains_eq_any_beq]
  refine any.trans (congrArg (List.any list.names) (funext fun name => ?_))
  rw [Function.comp_apply, Option.some_beq_some, BEq.comm]

/-- **A name that a list lacks** is added to it. -/
theorem newSpecifier?_of_list (is : group.node = list.node position)
    (stand : StandAt list.stretches position file.text) (word : Lexeme.IsWord symbol)
    (fresh : symbol ∉ list.names) :
    ∃ front added back : List Char,
      newSpecifier? file group symbol = some ⟨position + Text.size front, String.ofList added⟩ ∧
      text list.stretches = front ++ back ∧
      text (list.withName word).stretches = front ++ added ++ back := by
  have no_name : importsName file group symbol = false := by
    rw [importsName_eq is stand, Bool.eq_false_iff]
    exact fun there => fresh (List.contains_iff_mem.mp there)
  have nodes := map_node_constructs group
  rw [is, NameList.constructs_node] at nodes
  have parts (l : NameList) : text l.stretches =
      text l.opening ++ text (Specifier.layout l.specifiers) ++ text l.ending := by
    simp [NameList.stretches_eq]
  rw [newSpecifier?, no_name, if_neg Bool.false_ne_true, parts, parts (list.withName word)]
  show ∃ front added back : List Char, _ ∧ _ ∧
    text list.opening ++ text (Specifier.layout (Specifier.extend word list.specifiers)) ++
      text list.ending = _
  rcases List.eq_nil_or_concat' list.specifiers with empty | ⟨front, last, eq⟩
  · rw [empty] at nodes ⊢
    have no_construct : group.constructs = [] := List.map_eq_nil_iff.mp nodes
    refine ⟨text list.opening, [' '] ++ symbol ++ [' '], text list.ending, ?_, ?_, ?_⟩
    · have start : group.node.start = list.opens position := by rw [is]; rfl
      rw [no_construct, ← list.opens_eq, List.getLast?_nil, start]
    · simp [Specifier.layout]
    · simp [Specifier.layout, Specifier.extend, Specifier.ofName, Specifier.stretches,
        Alias.stretches, chars, Blank.single]
  · rw [eq, Specifier.placed_concat, List.map_append] at nodes
    have last_node := congrArg List.getLast? nodes
    rw [List.getLast?_map, List.map_singleton, List.getLast?_concat] at last_node
    obtain ⟨place, found, place_is⟩ := Option.map_eq_some_iff.mp last_node
    refine ⟨text list.opening ++ text (Specifier.layout front) ++ last.before.chars ++ last.name ++
        text (Alias.stretches last.renamed), [',', ' '] ++ symbol,
      last.after.chars ++ text (if last.comma then [.mark .comma ","] else []) ++ text list.ending,
      ?_, ?_, ?_⟩
    · have stop : place.node.stop =
          list.opens position + 1 + Text.size (text (Specifier.layout front)) +
            Text.size last.before.chars + Text.size last.name +
              Text.size (text (Alias.stretches last.renamed)) := by
        rw [place_is]
        exact last.stop_node _
      rw [found]
      simp only [stop, list.opens_eq, Text.size_append, Nat.add_assoc]
    · rw [eq]
      simp [Specifier.layout, Specifier.stretches, chars]
    · rw [eq, Specifier.extend_concat]
      simp [Specifier.layout, Specifier.stretches, Specifier.ofName, Alias.stretches, chars,
        Blank.single, Blank.nothing, mark]

/-! ### The imports of lines -/

section Lines

variable {text : String} {lines : List ImportLine} {behind : List Char}

theorem forall₂_filterMap {α β γ : Type} {r : α → β → Prop} {r' : γ → β → Prop} {f : α → Option γ}
    {as : List α} {bs : List β} (one : ∀ a, ∀ b ∈ bs, r a b → ∃ c, f a = some c ∧ r' c b)
    (all : List.Forall₂ r as bs) : List.Forall₂ r' (as.filterMap f) bs := by
  induction all with
  | nil => exact .nil
  | cons head _ ih =>
    obtain ⟨c, eq, related⟩ := one _ _ List.mem_cons_self head
    rw [List.filterMap_cons_some eq]
    exact .cons related (ih fun a b mem => one a b (List.mem_cons_of_mem _ mem))

/-- The imports of a file that begins with import lines begin with those of the lines. -/
theorem exists_imports_of_lines
    (eq : text.toList = Stretch.text (ImportLine.layout lines) ++ behind) :
    ∃ found more, imports (Document.parse text) = found ++ more ∧
      List.Forall₂ (fun found line => IsImportOf found line.1 line.2) found
        (ImportLine.placed 0 lines) ∧
      (Lexeme.LacksImport behind → more = []) := by
  obtain ⟨others, children, no_more⟩ := ImportLine.children_parse eq
  have constructs := map_node_constructs (Place.root (Document.parse text).root)
  have named : ∀ n ∈ ImportLine.nodes 0 lines, (n.kind.isNamed && !n.isExtra) = true := by
    intro n mem
    obtain ⟨line, -, rfl⟩ := List.mem_map.mp mem
    rfl
  rw [Node.constructs, Place.root, children, List.filter_append, List.filter_eq_self.mpr named]
    at constructs
  obtain ⟨front, back, split, front_nodes, back_nodes⟩ := List.map_eq_append_iff.mp constructs
  have places : List.Forall₂ (fun (place : Place) line => place.node = line.2.node line.1) front
      (ImportLine.placed 0 lines) := by
    rw [ImportLine.nodes, ← List.forall₂_eq_eq_eq, List.forall₂_map_left_iff,
      List.forall₂_map_right_iff] at front_nodes
    exact front_nodes
  have found : List.Forall₂ (fun found line => IsImportOf found line.1 line.2)
      (front.filterMap (importOf? (Document.parse text))) (ImportLine.placed 0 lines) := by
    refine forall₂_filterMap (fun place line mem is => importOf?_of_line is ?_) places
    rw [Document.text_parse, eq]
    exact ImportLine.standAt_of_mem_placed mem ⟨[], behind, rfl, rfl⟩
  refine ⟨_, back.filterMap (importOf? (Document.parse text)), ?_, found, fun lacks => ?_⟩
  · rw [imports, ← List.filterMap_append, ← split]
    rfl
  · refine List.filterMap_eq_nil_iff.mpr fun place mem => ?_
    have in_others : place.node ∈ others :=
      (List.mem_filter.mp (back_nodes ▸ List.mem_map_of_mem mem)).1
    have other : place.node.kind.isImport = false := no_more lacks _ in_others
    have no_import : (place.node.kind == .importStatement) = false := by
      rw [beq_eq_false_iff_ne]
      intro is
      rw [is] at other
      cases other
    simp [importOf?, no_import]

/-- **The imports of a file that begins with import lines** are those of the lines, if there are no
more. -/
theorem imports_of_lines (eq : text.toList = Stretch.text (ImportLine.layout lines) ++ behind)
    (all : (imports (Document.parse text)).length = lines.length) :
    List.Forall₂ (fun found line => IsImportOf found line.1 line.2)
      (imports (Document.parse text)) (ImportLine.placed 0 lines) := by
  obtain ⟨found, more, parts, related, -⟩ := exists_imports_of_lines eq
  have no_more : more = [] := by
    have count := related.length_eq
    rw [ImportLine.length_placed] at count
    rw [parts, List.length_append, count] at all
    exact List.eq_nil_of_length_eq_zero (by omega)
  rw [parts, no_more, List.append_nil]
  exact related

/-- There are no more if the word `import` is not behind them. -/
theorem length_imports_of_lines
    (eq : text.toList = Stretch.text (ImportLine.layout lines) ++ behind)
    (lacks : Lexeme.LacksImport behind) :
    (imports (Document.parse text)).length = lines.length := by
  obtain ⟨found, more, parts, related, no_more⟩ := exists_imports_of_lines eq
  rw [parts, no_more lacks, List.append_nil, related.length_eq, ImportLine.length_placed]

theorem exists_find?_forall₂ {α β : Type} {r : α → β → Prop} {as : List α} {bs : List β}
    (all : List.Forall₂ r as bs) {p : α → Bool} {q : β → Bool} (same : ∀ a b, r a b → p a = q b)
    {a : α} (first : as.find? p = some a) : ∃ b, bs.find? q = some b ∧ r a b := by
  induction all with
  | nil => cases first
  | cons head _ ih =>
    rw [List.find?_cons] at first ⊢
    rw [← same _ _ head]
    split at first
    next =>
      cases first
      exact ⟨_, rfl, head⟩
    next => exact ih first

theorem exists_mem_forall₂ {α β : Type} {r : α → β → Prop} {as : List α} {bs : List β}
    (all : List.Forall₂ r as bs) {b : β} (mem : b ∈ bs) : ∃ a ∈ as, r a b := by
  induction all with
  | nil => cases mem
  | cons head _ ih =>
    rcases List.mem_cons.mp mem with rfl | mem
    · exact ⟨_, List.mem_cons_self, head⟩
    · obtain ⟨a, a_mem, related⟩ := ih mem
      exact ⟨a, List.mem_cons_of_mem _ a_mem, related⟩

theorem exists_getLast?_forall₂ {α β : Type} {r : α → β → Prop} {as : List α} {bs : List β}
    (all : List.Forall₂ r as bs) {a : α} (last : as.getLast? = some a) :
    ∃ b, bs.getLast? = some b ∧ r a b := by
  have reversed := List.forall₂_reverse_iff.mpr all
  rw [← List.head?_reverse] at last ⊢
  generalize as.reverse = as', bs.reverse = bs' at reversed last ⊢
  cases reversed with
  | nil => cases last
  | cons head _ =>
    cases last
    exact ⟨_, rfl, head⟩

theorem importStatement_eq (symbol path : List Char) :
    importStatement symbol path =
      "import".toList ++ ([' '] ++ "\x7b".toList) ++ ([' '] ++ (symbol ++ [' '])) ++
        ("\x7d".toList ++ ([' '] ++ ("from".toList ++ ([' '] ++ (['\''] ++ path ++ ['\'']))))) := by
  have front : "import \x7b ".toList = "import".toList ++ ([' '] ++ "\x7b".toList) ++ [' '] := rfl
  have back : " \x7d from '".toList =
      [' '] ++ ("\x7d".toList ++ ([' '] ++ ("from".toList ++ ([' '] ++ ['\''])))) := rfl
  unfold importStatement
  simp only [front, back, List.append_assoc]

/-- A line of its own is the statement that imports the symbol. -/
theorem text_ofName (word : Lexeme.IsWord symbol) (plain : IsPlainPath path)
    (front afterPath : Blank) :
    Stretch.text (ImportLine.ofName word plain front afterPath).stretches =
      front.chars ++ importStatement symbol path ++ (afterPath.chars ++ [';']) := by
  rw [importStatement_eq]
  simp [ImportLine.ofName, ImportLine.stretches, ImportLine.upToPath, ImportLine.opening,
    ImportLine.ending, ImportLine.quotedPath, Subject.stretches, Clause.stretches, NameList.stretches,
    Specifier.layout, Specifier.stretches, Specifier.ofName, Alias.stretches, chars, Blank.single,
    Blank.nothing, Stretch.key, Stretch.mark]

/-- The second lines are the first ones with the symbol imported from the path, or the first ones
where it is imported already or the first line from the path has no braces. -/
inductive Added (word : Lexeme.IsWord symbol) (plain : IsPlainPath path) :
    List ImportLine → List ImportLine → Prop
  | kept {lines : List ImportLine} {l : ImportLine}
      (first : lines.find? (fun l => l.path == path) = some l)
      (full : ∀ list, l.subject.list? = some list → symbol ∈ list.names) :
      Added word plain lines lines
  | name {init rest : List ImportLine} {l : ImportLine} {list : NameList}
      (others : ∀ k ∈ init, k.path ≠ path) (from_path : l.path = path)
      (named : l.subject.list? = some list) (lacks : symbol ∉ list.names) :
      Added word plain (init ++ l :: rest) (init ++ l.withName word :: rest)
  | first : Added word plain [] [.ofName word plain .nothing .nothing]
  | last {init : List ImportLine} {l : ImportLine} (others : ∀ k ∈ init ++ [l], k.path ≠ path) :
      Added word plain (init ++ [l])
        (init ++ [{ l with afterPath := .nothing }, .ofName word plain .lineFeed l.afterPath])

/-- The addition, if there is one, leaves import lines, with a line feed behind them or nothing. -/
def LeavesLines (word : Lexeme.IsWord symbol) (plain : IsPlainPath path) (lines : List ImportLine)
    (addition : Option Addition) : Prop :=
  ∃ (front added back more : List Char) (lines' : List ImportLine),
    Stretch.text (ImportLine.layout lines) = front ++ back ∧
    front ++ added ++ back = Stretch.text (ImportLine.layout lines') ++ more ∧
    (more = [] ∨ more = ['\n']) ∧ Added word plain lines lines' ∧
    (addition = none ∧ added = [] ∨ addition = some ⟨Text.size front, String.ofList added⟩)

/-- The first line from a path is the one that no other such line stands in front of. -/
theorem find?_append_cons {init rest : List ImportLine} {l : ImportLine}
    (others : ∀ k ∈ init, k.path ≠ path) (from_path : l.path = path) :
    (init ++ l :: rest).find? (fun l => l.path == path) = some l :=
  List.find?_eq_some_iff_append.mpr
    ⟨beq_iff_eq.mpr from_path, init, rest, rfl, fun k mem => by simpa using others k mem⟩

theorem leavesLines_of_kept {word : Lexeme.IsWord symbol} {plain : IsPlainPath path}
    (first : lines.find? (fun l => l.path == path) = some l)
    (full : ∀ list, l.subject.list? = some list → symbol ∈ list.names) :
    LeavesLines word plain lines none :=
  ⟨Stretch.text (ImportLine.layout lines), [], [], [], lines, (List.append_nil _).symm, by simp,
    .inl rfl, .kept first full, .inl ⟨rfl, rfl⟩⟩

/-- Names are added to the first line from the path. -/
theorem leavesLines_of_find? {position : Nat} {group : Place} {list : NameList}
    (found : (ImportLine.placed 0 lines).find? (fun line => line.2.path == path) =
      some (position, l)) (named : l.subject.list? = some list)
    (is : group.node = list.node (l.subject.clauseStart (l.subjectStart position)))
    (stand : StandAt l.stretches position file.text) (word : Lexeme.IsWord symbol)
    (plain : IsPlainPath path) :
    LeavesLines word plain lines (newSpecifier? file group symbol) := by
  obtain ⟨from_path, before, after, placed, others⟩ := List.find?_eq_some_iff_append.mp found
  obtain ⟨lines_eq, begins⟩ := ImportLine.eq_append_of_placed 0 placed
  have from_path : l.path = path := by simpa using from_path
  have others : ∀ k ∈ before.map Prod.snd, k.path ≠ path :=
    List.forall_mem_map.mpr fun line mem => by simpa using others line mem
  dsimp only at lines_eq begins
  rw [Nat.zero_add] at begins
  obtain ⟨front, back, text_l, text_l', start⟩ := ImportLine.exists_text_withName named word
  have list_stand := ImportLine.standAt_list named stand
  by_cases there : symbol ∈ list.names
  · have known : importsName file group symbol = true := by
      rw [importsName_eq is list_stand]
      exact List.contains_iff_mem.mpr there
    have none_added : newSpecifier? file group symbol = none := by
      rw [newSpecifier?, known, if_pos rfl]
    have first : lines.find? (fun l => l.path == path) = some l := by
      rw [lines_eq]
      exact find?_append_cons others from_path
    rw [none_added]
    refine leavesLines_of_kept first fun list' named' => ?_
    rw [named] at named'
    cases named'
    exact there
  · obtain ⟨front', added, back', addition, before_eq, with_name⟩ :=
      newSpecifier?_of_list is list_stand word there
    let init := before.map Prod.snd
    let rest := after.map Prod.snd
    refine ⟨Stretch.text (ImportLine.layout init) ++ front ++ front', added,
      back' ++ back ++ Stretch.text (ImportLine.layout rest), [], init ++ l.withName word :: rest,
      ?_, ?_, .inl rfl, ?_, .inr ?_⟩
    · simp [lines_eq, init, rest, ImportLine.layout, text_l, before_eq]
    · simp [init, rest, ImportLine.layout, text_l', with_name]
    · rw [lines_eq]
      exact .name others from_path named there
    · rw [addition, start, begins, Text.size_append, Text.size_append]

/-- An import on its own goes to the top of a file without imports. -/
theorem leavesLines_of_nil (word : Lexeme.IsWord symbol) (plain : IsPlainPath path) :
    LeavesLines word plain []
      (some ⟨0, String.ofList (importStatement symbol path ++ ";\n".toList)⟩) := by
  let line := ImportLine.ofName word plain .nothing .nothing
  have line_text : Stretch.text (ImportLine.layout [line]) =
      importStatement symbol path ++ [';'] := by
    rw [ImportLine.layout, List.flatMap_singleton]
    exact text_ofName word plain .nothing .nothing
  refine ⟨[], importStatement symbol path ++ ";\n".toList, [], ['\n'], [line], rfl, ?_, .inr rfl,
    .first, .inr rfl⟩
  rw [line_text]
  simp

/-- An import on its own goes behind the path of the last line. -/
theorem leavesLines_of_last {init : List ImportLine} {l : ImportLine}
    (others : ∀ k ∈ init ++ [l], k.path ≠ path) (word : Lexeme.IsWord symbol)
    (plain : IsPlainPath path) :
    LeavesLines word plain (init ++ [l])
      (some ⟨Text.size (Stretch.text (ImportLine.layout init) ++ Stretch.text l.upToPath),
        String.ofList (";\n".toList ++ importStatement symbol path)⟩) := by
  let kept : ImportLine := { l with afterPath := .nothing }
  let own := ImportLine.ofName word plain .lineFeed l.afterPath
  have kept_text : Stretch.text kept.stretches = Stretch.text l.upToPath ++ [';'] := by
    rw [ImportLine.stretches, Stretch.text_append]
    rfl
  have own_text : Stretch.text own.stretches =
      ['\n'] ++ importStatement symbol path ++ Stretch.text l.ending :=
    text_ofName word plain .lineFeed l.afterPath
  refine ⟨Stretch.text (ImportLine.layout init) ++ Stretch.text l.upToPath,
    ";\n".toList ++ importStatement symbol path, Stretch.text l.ending, [],
    init ++ [kept, own], ?_, ?_, .inl rfl, .last others, .inr rfl⟩
  · simp [ImportLine.layout, ImportLine.stretches]
  · simp [ImportLine.layout, kept_text, own_text]

/-- **An import that is added** to import lines leaves import lines. -/
theorem leavesLines (eq : text.toList = Stretch.text (ImportLine.layout lines) ++ behind)
    (all : (imports (Document.parse text)).length = lines.length)
    (word : Lexeme.IsWord symbol) (plain : IsPlainPath path) :
    LeavesLines word plain lines (importAddition? (Document.parse text) symbol path) := by
  have found := imports_of_lines eq all
  have same : ∀ (found : Import) (line : Nat × ImportLine), IsImportOf found line.1 line.2 →
      (found.path == path) = (line.2.path == path) := fun found line is => by rw [is.path]
  rw [importAddition?]
  dsimp only
  cases first : (imports (Document.parse text)).find? fun found => found.path == path with
  | some existing =>
    -- the first import from the path is that of the first line from it
    obtain ⟨⟨position, l⟩, first_line, is⟩ := exists_find?_forall₂ found
      (q := fun line => line.2.path == path) same first
    have stand : StandAt l.stretches position (Document.parse text).text := by
      rw [Document.text_parse, eq]
      exact ImportLine.standAt_of_mem_placed (List.mem_of_find?_eq_some first_line)
        ⟨[], behind, rfl, rfl⟩
    have first_l : lines.find? (fun l => l.path == path) = some l := by
      rw [← ImportLine.map_placed 0 lines, List.find?_map]
      exact congrArg (Option.map Prod.snd) first_line
    have named_is := is.named
    dsimp only
    cases named : existing.named with
    | none =>
      rw [named] at named_is
      have no_list : l.subject.list? = none := Option.map_eq_none_iff.mp named_is.symm
      exact leavesLines_of_kept first_l (by simp [no_list])
    | some group =>
      rw [named] at named_is
      obtain ⟨list, is_list, group_is⟩ := Option.map_eq_some_iff.mp named_is.symm
      exact leavesLines_of_find? first_line is_list group_is.symm stand word plain
  | none =>
    -- no line is from the path, so that the import is a line of its own
    have others : ∀ l ∈ lines, l.path ≠ path := by
      intro l mem from_path
      obtain ⟨line, line_mem, rfl⟩ := ImportLine.exists_mem_placed 0 mem
      obtain ⟨import', import_mem, is⟩ := exists_mem_forall₂ found line_mem
      have other := List.find?_eq_none.mp first import' import_mem
      rw [is.path, from_path, beq_self_eq_true] at other
      exact other rfl
    cases last : (imports (Document.parse text)).getLast? with
    | none =>
      obtain rfl : lines = [] := by
        rw [List.getLast?_eq_none_iff.mp last] at all
        exact List.eq_nil_of_length_eq_zero all.symm
      exact leavesLines_of_nil word plain
    | some found_last =>
      obtain ⟨line, line_last, is⟩ := exists_getLast?_forall₂ found last
      rcases List.eq_nil_or_concat' lines with rfl | ⟨init, l, rfl⟩
      · cases line_last
      rw [ImportLine.placed_concat, List.getLast?_concat] at line_last
      cases line_last
      have stop : found_last.source.node.stop =
          Text.size (Stretch.text (ImportLine.layout init) ++ Stretch.text l.upToPath) := by
        rw [is.source, Text.size_append]
        exact (l.pathStart_eq _).trans (by rw [Nat.zero_add])
      dsimp only
      rw [stop]
      exact leavesLines_of_last others word plain

/-- The addition, if there is one, leaves import lines, one of which binds the symbol to what it is in
the file at the path. -/
def LeavesImport (lines : List ImportLine) (symbol path : List Char)
    (addition : Option Addition) : Prop :=
  ∃ (front added back more : List Char) (lines' : List ImportLine),
    Stretch.text (ImportLine.layout lines) = front ++ back ∧
    front ++ added ++ back = Stretch.text (ImportLine.layout lines') ++ more ∧
    (∃ l ∈ lines', l.path = path ∧ symbol ∈ l.subject.bound) ∧
    (addition = none ∧ added = [] ∨ addition = some ⟨Text.size front, String.ofList added⟩)

/-- Where the first line from the path admits the symbol, it is bound. -/
theorem Added.exists_bound {word : Lexeme.IsWord symbol} {plain : IsPlainPath path}
    {lines' : List ImportLine} (added : Added word plain lines lines')
    (admits : ∀ l, lines.find? (fun l => l.path == path) = some l → l.Admits symbol) :
    ∃ l ∈ lines', l.path = path ∧ symbol ∈ l.subject.bound := by
  cases added with
  | kept first full =>
    obtain ⟨list, after, names, bound⟩ := admits _ first
    refine ⟨_, List.mem_of_find?_eq_some first, by simpa using List.find?_some first, ?_⟩
    rw [names]
    exact bound (full list (by rw [names]; rfl))
  | @name init rest l list others from_path named lacks =>
    have first : (init ++ l :: rest).find? (fun l => l.path == path) = some l :=
      find?_append_cons others from_path
    obtain ⟨list', after, names, -⟩ := admits l first
    refine ⟨l.withName word, by simp, from_path, ?_⟩
    rw [ImportLine.withName, names]
    exact NameList.mem_bound_withName list' word
  | first => exact ⟨_, List.mem_singleton_self _, rfl, List.mem_singleton_self symbol⟩
  | @last init l =>
    exact ⟨.ofName word plain .lineFeed l.afterPath, by simp, rfl, List.mem_singleton_self symbol⟩

/-- **An import that is added** to import lines leaves import lines, one of which binds the symbol, if
the first line from the path admits it. -/
theorem leavesImport (eq : text.toList = Stretch.text (ImportLine.layout lines) ++ behind)
    (all : (imports (Document.parse text)).length = lines.length)
    (word : Lexeme.IsWord symbol) (plain : IsPlainPath path)
    (admits : ∀ l, lines.find? (fun l => l.path == path) = some l → l.Admits symbol) :
    LeavesImport lines symbol path (importAddition? (Document.parse text) symbol path) := by
  obtain ⟨front, added, back, more, lines', before, after, -, lines_added, addition⟩ :=
    leavesLines eq all word plain
  exact ⟨front, added, back, more, lines', before, after, lines_added.exists_bound admits, addition⟩

/-- **The class is declared behind the lines.** -/
theorem lt_offset_of_declarationAddition?
    (eq : text.toList = Stretch.text (ImportLine.layout lines) ++ behind)
    (wellFormed : Node.WellFormed (Document.parse text).text (Document.parse text).root)
    {decorator metadata : Place} (in_file : decorator ∈ (Document.parse text).places)
    (is_metadata : metadataOf? (Document.parse text) decorator = some metadata)
    {className : List Char} {declaration : Addition}
    (declared : declarationAddition? (Document.parse text) metadata className = some declaration) :
    Text.size (Stretch.text (ImportLine.layout lines)) < declaration.offset := by
  obtain ⟨there, is_object⟩ := isIn_of_metadataOf? in_file is_metadata
  obtain ⟨-, -, call, arguments, -, -, -, metadata_step⟩ := metadataOf?_eq_some is_metadata
  have inside := inside_of_declarationAddition? declared wellFormed there is_object
  have way := there.below?
  rcases List.eq_nil_or_concat' lines with rfl | ⟨init, l, rfl⟩
  · exact Nat.lt_of_le_of_lt (Nat.zero_le _) inside.2.1
  obtain ⟨i, rest, way_eq⟩ : ∃ i rest, wayTo metadata.above = i :: rest := by
    obtain ⟨c, step⟩ := metadata_step.wayTo_eq
    cases above : wayTo metadata.above with
    | nil => simp [above] at step
    | cons i rest => exact ⟨i, rest, rfl⟩
  rw [way_eq] at way
  obtain ⟨child, child_there, leads⟩ := Option.bind_eq_some_iff.mp way
  obtain ⟨others, children, -⟩ := ImportLine.children_parse eq
  -- a node of a line is no object, so that the metadata is in a later statement
  have behind_lines : init.length < i := by
    by_contra not_behind
    have in_lines : child ∈ ImportLine.nodes 0 (init ++ [l]) := by
      rw [children, List.getElem?_append_left
        (by simp [ImportLine.nodes, ImportLine.length_placed]; omega)] at child_there
      exact List.mem_of_getElem? child_there
    obtain ⟨line, -, rfl⟩ := List.mem_map.mp in_lines
    have other := Node.passes_of_below? (line.2.allKinds_node line.1) leads
    rw [is_object] at other
    cases other
  have last_there : (Document.parse text).root.children[init.length]? =
      some (l.node (0 + Text.size (Stretch.text (ImportLine.layout init)))) := by
    rw [children, ImportLine.nodes, ImportLine.placed_concat, List.map_append, List.append_assoc,
      List.getElem?_append_right (by simp [ImportLine.length_placed])]
    simp [ImportLine.length_placed]
  have ordered := wellFormed.ordered
  have order := ordered.inOrder.stop_le behind_lines last_there child_there
  have within := (ordered.child (List.mem_of_getElem? child_there)).within leads
  have size : Text.size (Stretch.text (ImportLine.layout (init ++ [l]))) =
      (l.node (0 + Text.size (Stretch.text (ImportLine.layout init)))).stop := by
    rw [ImportLine.stop_node]
    simp [ImportLine.layout]
  omega

end Lines

end AngularModule.Registration

end ModelGrid
