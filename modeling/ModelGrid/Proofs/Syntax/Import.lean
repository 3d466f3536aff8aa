import ModelGrid.Proofs.Syntax.Head
import ModelGrid.Proofs.Syntax.ImportGrammar
import ModelGrid.Proofs.Syntax.Value

/-!
# Import lines

An import line takes nothing from a file, or what it exports by default, or all of it under one
name, or names in braces, as values or as types, and ends in its semicolon.  Its parts are data with
the conditions under which they scan, so that every line can be laid out and read, wherever it
stands and whatever stands behind it.

The nodes are written out with their positions, since an addition to a file is made at the end of
one of them.

Left out are lines with a default next to other names, names in braces that are types one by one,
assigned imports, lines with comments in them, and lines that only a line break ends.

## Main definitions

* `Blank`, `Gap`, `Identifier`, `Specifier`, `NameList`, `Clause`, `Subject`: the parts of a line.
* `ImportLine`: a line, with its layout `ImportLine.stretches` and its statement `ImportLine.node`.
* `ImportLine.placed`: lines with the positions that they begin at.

## Main results

* `ImportLine.firm`: the lexemes of a line are scanned.
* `ImportLine.read_statement`: a line is read as its statement.
-/

namespace ModelGrid.Syntax

open Lexeme Stretch

/-! ### The parts of a line -/

/-- White space, or nothing. -/
structure Blank where
  chars : List Char
  space : ∀ c ∈ chars, isSpace c = true

/-- White space. -/
structure Gap extends Blank where
  nonempty : chars ≠ []

/-- A name that is no keyword. -/
structure Identifier where
  chars : List Char
  isWord : IsWord chars
  noKeyword : Keyword.ofChars? chars = none

namespace Blank

def nothing : Blank := ⟨[], List.forall_mem_nil _⟩

def single : Blank := ⟨[' '], List.forall_mem_singleton.mpr rfl⟩

def lineFeed : Blank := ⟨['\n'], List.forall_mem_singleton.mpr rfl⟩

end Blank

def Gap.single : Gap := ⟨.single, List.cons_ne_nil _ _⟩

/-- A path that reads the same with quotes around it and without them. -/
def IsPlainPath (path : List Char) : Prop :=
  ∀ c ∈ path, c ∉ ['\'', '"', '\x60', '\\', '\n', '\r']

instance (path : List Char) : Decidable (IsPlainPath path) :=
  decidable_of_iff
    ((path.all fun c => decide (c ∉ ['\'', '"', '\x60', '\\', '\n', '\r'])) = true)
    (by simp only [List.all_eq_true, decide_eq_true_eq]; rfl)

theorem IsPlainPath.isQuoted {path : List Char} {quote : Char} (plain : IsPlainPath path)
    (is : quote = '\'' ∨ quote = '"') : IsQuoted quote path := by
  intro c mem
  have other := plain c mem
  simp only [List.mem_cons, List.not_mem_nil, or_false, not_or] at other
  obtain ⟨no_single, no_double, -, rest⟩ := other
  rcases is with rfl | rfl
  · exact ⟨no_single, rest⟩
  · exact ⟨no_double, rest⟩

/-- The name that an imported name goes by here, if it is another, with the word in front of it. -/
structure Alias where
  before : Gap
  afterAs : Gap
  name : Identifier

/-- A name in braces, with the white space around it. -/
structure Specifier where
  before : Blank
  name : List Char
  isWord : IsWord name
  renamed : Option Alias
  after : Blank
  /-- Whether a comma stands behind the name. -/
  comma : Bool

/-- There is a comma behind every name but the last, behind which there may be one. -/
def Specifier.Separated (specifiers : List Specifier) : Prop :=
  ∀ s ∈ specifiers.dropLast, s.comma = true

/-- Names in braces, with the white space in front of the braces and behind the names. -/
structure NameList where
  before : Blank
  specifiers : List Specifier
  separated : Specifier.Separated specifiers
  closing : Blank

/-- What a line takes from a file, up to the word in front of the path. -/
inductive Clause
  | default (before : Gap) (name : Identifier) (after : Gap)
  /-- All that the file exports, under one name. -/
  | all (before : Blank) (afterStar afterAs : Gap) (name : Identifier) (after : Gap)
  | names (list : NameList) (after : Blank)

/-- What a line takes, and what for. -/
inductive Subject
  /-- Nothing: the file is run for its effects. -/
  | nothing
  | values (clause : Clause)
  /-- What goes by its names in types only. -/
  | types (before : Gap) (clause : Clause)

/-- An import that ends in its semicolon. -/
structure ImportLine where
  front : Blank
  subject : Subject
  beforePath : Blank
  quote : Char
  isQuote : quote = '\'' ∨ quote = '"'
  path : List Char
  plain : IsPlainPath path
  afterPath : Blank

/-! ### Layouts and nodes -/

namespace Alias

/-- The other name as it is laid out, behind the imported one. -/
def stretches : Option Alias → List Stretch
  | none => []
  | some a =>
    [.space a.before.chars, .key .asWord "as", .space a.afterAs.chars,
     .lexeme (.word none) a.name.chars]

/-- The other name as nodes, where it is laid out from the position on. -/
def nodes (position : Nat) : Option Alias → List Node
  | none => []
  | some a =>
    let as := position + Text.size a.before.chars
    let start := as + 2 + Text.size a.afterAs.chars
    [.leaf .keyword as (as + 2), .leaf .identifier start (start + Text.size a.name.chars)]

end Alias

namespace Specifier

/-- The name as it is laid out. -/
def stretches (s : Specifier) : List Stretch :=
  .space s.before.chars :: .lexeme (.word (Keyword.ofChars? s.name)) s.name ::
    (Alias.stretches s.renamed ++
      .space s.after.chars :: if s.comma then [.mark .comma ","] else [])

/-- The names as they are laid out. -/
def layout (specifiers : List Specifier) : List Stretch :=
  specifiers.flatMap stretches

/-- The name as a node that begins at the position. -/
def node (position : Nat) (s : Specifier) : Node :=
  .branch .importSpecifier
    ((Node.leaf .identifier position (position + Text.size s.name)).withField .name ::
      Alias.nodes (position + Text.size s.name) s.renamed)

/-- The name and its comma as nodes, where they are laid out from the position on. -/
def nodes (position : Nat) (s : Specifier) : List Node :=
  let start := position + Text.size s.before.chars
  let stop := start + Text.size s.name + Text.size (text (Alias.stretches s.renamed)) +
    Text.size s.after.chars
  s.node start :: if s.comma then [.leaf .punctuation stop (stop + 1)] else []

/-- The names and their commas as nodes, where they are laid out from the position on. -/
def nodesFrom (position : Nat) : List Specifier → List Node
  | [] => []
  | s :: rest => s.nodes position ++ nodesFrom (position + Text.size (text s.stretches)) rest

/-- The names with the positions that they begin at, where they are laid out from the position on. -/
def placed (position : Nat) : List Specifier → List (Nat × Specifier)
  | [] => []
  | s :: rest =>
    (position + Text.size s.before.chars, s) ::
      placed (position + Text.size (text s.stretches)) rest

end Specifier

namespace NameList

/-- The names in braces as they are laid out. -/
def stretches (l : NameList) : List Stretch :=
  .space l.before.chars :: .mark .openBrace "\x7b" :: (Specifier.layout l.specifiers ++
    [.space l.closing.chars, .mark .closeBrace "\x7d"])

/-- Where the brace opens, in a list that is laid out from the position on. -/
def opens (position : Nat) (l : NameList) : Nat :=
  position + Text.size l.before.chars

/-- Where the brace closes. -/
def closes (position : Nat) (l : NameList) : Nat :=
  l.opens position + 1 + Text.size (text (Specifier.layout l.specifiers)) +
    Text.size l.closing.chars

/-- The names in braces as a node, where they are laid out from the position on. -/
def node (position : Nat) (l : NameList) : Node :=
  .branch .namedImports
    (.leaf .openBrace (l.opens position) (l.opens position + 1) ::
      Specifier.nodesFrom (l.opens position + 1) l.specifiers ++
      [.leaf .punctuation (l.closes position) (l.closes position + 1)])

end NameList

namespace Clause

/-- What is imported as it is laid out, with the word in front of the path. -/
def stretches : Clause → List Stretch
  | default before name after =>
    [.space before.chars, .lexeme (.word none) name.chars, .space after.chars,
     .key .fromWord "from"]
  | all before afterStar afterAs name after =>
    [.space before.chars, .mark .times "*", .space afterStar.chars, .key .asWord "as",
     .space afterAs.chars, .lexeme (.word none) name.chars, .space after.chars,
     .key .fromWord "from"]
  | names list after => list.stretches ++ [.space after.chars, .key .fromWord "from"]

/-- What is imported as nodes, where it is laid out from the position on. -/
def nodes (position : Nat) : Clause → List Node
  | default before name after =>
    let start := position + Text.size before.chars
    let stop := start + Text.size name.chars
    let from' := stop + Text.size after.chars
    [.branch .importClause [.leaf .identifier start stop], .leaf .keyword from' (from' + 4)]
  | all before afterStar afterAs name after =>
    let star := position + Text.size before.chars
    let as := star + 1 + Text.size afterStar.chars
    let start := as + 2 + Text.size afterAs.chars
    let stop := start + Text.size name.chars
    let from' := stop + Text.size after.chars
    [.branch .importClause
      [.branch .namespaceImport
        [.leaf .punctuation star (star + 1), .leaf .keyword as (as + 2),
         .leaf .identifier start stop]],
     .leaf .keyword from' (from' + 4)]
  | names list after =>
    let from' := list.closes position + 1 + Text.size after.chars
    [.branch .importClause [list.node position], .leaf .keyword from' (from' + 4)]

end Clause

namespace Subject

/-- What the line takes as it is laid out. -/
def stretches : Subject → List Stretch
  | nothing => []
  | values clause => clause.stretches
  | types before clause => .space before.chars :: .key .typeWord "type" :: clause.stretches

/-- What the line takes as nodes, where it is laid out from the position on. -/
def nodes (position : Nat) : Subject → List Node
  | nothing => []
  | values clause => clause.nodes position
  | types before clause =>
    let type := position + Text.size before.chars
    .leaf .keyword type (type + 4) :: clause.nodes (type + 4)

end Subject

namespace ImportLine

/-- The path in its quotes. -/
def quotedPath (l : ImportLine) : List Char :=
  l.quote :: l.path ++ [l.quote]

/-- The line up to what it takes. -/
def opening (l : ImportLine) : List Stretch :=
  [.space l.front.chars, .key .importWord "import"]

/-- The line up to its path. -/
def upToPath (l : ImportLine) : List Stretch :=
  l.opening ++ l.subject.stretches ++ [.space l.beforePath.chars, .lexeme .string l.quotedPath]

/-- The line behind its path. -/
def ending (l : ImportLine) : List Stretch :=
  [.space l.afterPath.chars, .mark .semicolon ";"]

/-- The line as it is laid out. -/
def stretches (l : ImportLine) : List Stretch :=
  l.upToPath ++ l.ending

/-- Where the line goes on behind its first word, in a line that is laid out from the position on. -/
def subjectStart (position : Nat) (l : ImportLine) : Nat :=
  position + Text.size l.front.chars + 6

/-- Where the path begins. -/
def pathStart (position : Nat) (l : ImportLine) : Nat :=
  l.subjectStart position + Text.size (text l.subject.stretches) + Text.size l.beforePath.chars

/-- The path as a node. -/
def source (position : Nat) (l : ImportLine) : Node :=
  (Node.leaf .stringLiteral (l.pathStart position)
    (l.pathStart position + Text.size l.quotedPath)).withField .source

/-- The line up to its path as nodes. -/
def nodesUpToPath (position : Nat) (l : ImportLine) : List Node :=
  let start := position + Text.size l.front.chars
  .leaf .keyword start (start + 6) ::
    (l.subject.nodes (l.subjectStart position) ++ [l.source position])

/-- Where the semicolon is. -/
def semicolon (position : Nat) (l : ImportLine) : Nat :=
  l.pathStart position + Text.size l.quotedPath + Text.size l.afterPath.chars

/-- The statement that the line is. -/
def node (position : Nat) (l : ImportLine) : Node :=
  .branch .importStatement
    (l.nodesUpToPath position ++
      [.leaf .semicolon (l.semicolon position) (l.semicolon position + 1)])

/-- The lines as they are laid out, one after another. -/
def layout (lines : List ImportLine) : List Stretch :=
  lines.flatMap stretches

/-- The lines with the positions that they begin at, where they are laid out from the position on. -/
def placed (position : Nat) : List ImportLine → List (Nat × ImportLine)
  | [] => []
  | l :: rest => (position, l) :: placed (position + Text.size (text l.stretches)) rest

/-- The statements that lines are, where they are laid out from the position on. -/
def nodes (position : Nat) (lines : List ImportLine) : List Node :=
  (placed position lines).map fun line => line.2.node line.1

end ImportLine

/-! ### Scanning a line -/

namespace Alias

variable {rest : List Stretch}

theorem stopsWords_append (renamed : Option Alias) (stops : StopsWords rest) :
    StopsWords (stretches renamed ++ rest) := by
  cases renamed with
  | none => exact stops
  | some a => exact stopsWords_space a.before.space a.before.nonempty _

theorem firm_append (renamed : Option Alias) (stops : StopsWords rest) (later : Firm rest) :
    Firm (stretches renamed ++ rest) := by
  cases renamed with
  | none => exact later
  | some a =>
    have name : Firm (.lexeme (.word none) a.name.chars :: rest) :=
      firm_name a.name.isWord a.name.noKeyword stops later
    exact ⟨a.before.space, firm_key (by simp [Keyword.spellings]) (by decide)
      (stopsWords_space a.afterAs.space a.afterAs.nonempty _) ⟨a.afterAs.space, name⟩⟩

end Alias

namespace Specifier

theorem separated_cons {s : Specifier} {rest : List Specifier} (separated : Separated (s :: rest)) :
    Separated rest ∧ (s.comma = false → rest = []) := by
  cases rest with
  | nil => exact ⟨List.forall_mem_nil _, fun _ => rfl⟩
  | cons t later =>
    obtain ⟨comma, later⟩ := List.forall_mem_cons.mp separated
    refine ⟨later, fun no_comma => ?_⟩
    rw [comma] at no_comma
    cases no_comma

theorem layout_cons (s : Specifier) (rest : List Specifier) :
    layout (s :: rest) = s.stretches ++ layout rest := rfl

/-- The names are scanned in front of stretches that no word goes on in. -/
theorem firm_layout {specifiers : List Specifier} (separated : Separated specifiers)
    {back : List Stretch} (stops : StopsWords back) (later : Firm back) :
    Firm (layout specifiers ++ back) := by
  induction specifiers with
  | nil => exact later
  | cons s rest ih =>
    obtain ⟨separated, last⟩ := separated_cons separated
    have name {more : List Stretch} (stops : StopsWords more) (later : Firm more) :
        Firm (.space s.before.chars :: .lexeme (.word (Keyword.ofChars? s.name)) s.name ::
          (Alias.stretches s.renamed ++ Stretch.space s.after.chars :: more)) := by
      have stops' := StopsWords.space s.after.space stops
      exact ⟨s.before.space, firm_word s.isWord (Alias.stopsWords_append s.renamed stops')
        (Alias.firm_append s.renamed stops' ⟨s.after.space, later⟩)⟩
    have whole : layout (s :: rest) ++ back =
        .space s.before.chars :: .lexeme (.word (Keyword.ofChars? s.name)) s.name ::
          (Alias.stretches s.renamed ++ Stretch.space s.after.chars ::
            ((if s.comma then [Stretch.mark .comma ","] else []) ++ (layout rest ++ back))) := by
      simp [layout_cons, stretches]
    rw [whole]
    cases comma : s.comma with
    | true => exact name (stopsWords_cons (by decide) _) (firm_shortMark (by decide) (ih separated))
    | false =>
      obtain rfl := last comma
      exact name stops later

end Specifier

/-- The names in braces are scanned whatever stands behind them. -/
theorem NameList.firm_append (l : NameList) {rest : List Stretch} (later : Firm rest) :
    Firm (l.stretches ++ rest) := by
  have closing : Firm (.space l.closing.chars :: .mark .closeBrace "\x7d" :: rest) :=
    ⟨l.closing.space, firm_shortMark (by decide) later⟩
  have stops : StopsWords (.space l.closing.chars :: .mark .closeBrace "\x7d" :: rest) :=
    .space l.closing.space (stopsWords_cons (by decide) rest)
  have names := Specifier.firm_layout l.separated stops closing
  have whole : l.stretches ++ rest =
      .space l.before.chars :: .mark .openBrace "\x7b" :: (Specifier.layout l.specifiers ++
        Stretch.space l.closing.chars :: .mark .closeBrace "\x7d" :: rest) := by
    simp [stretches]
  rw [whole]
  exact ⟨l.before.space, firm_shortMark (by decide) names⟩

namespace Clause

variable {rest : List Stretch}

theorem stopsWords_append (c : Clause) (rest : List Stretch) :
    StopsWords (c.stretches ++ rest) := by
  cases c with
  | default before => exact stopsWords_space before.space before.nonempty _
  | all before => exact .space before.space (stopsWords_cons (by decide) _)
  | names list => exact .space list.before.space (stopsWords_cons (by decide) _)

theorem firm_append (c : Clause) (stops : StopsWords rest) (later : Firm rest) :
    Firm (c.stretches ++ rest) := by
  have from' (after : Blank) : Firm (.space after.chars :: .key .fromWord "from" :: rest) :=
    ⟨after.space, firm_key (by simp [Keyword.spellings]) (by decide) stops later⟩
  have name (name : Identifier) (after : Gap) :
      Firm (.lexeme (.word none) name.chars :: .space after.chars :: .key .fromWord "from" ::
        rest) :=
    firm_name name.isWord name.noKeyword (stopsWords_space after.space after.nonempty _)
      (from' after.toBlank)
  cases c with
  | default before own after => exact ⟨before.space, name own after⟩
  | all before afterStar afterAs own after =>
    have as : Firm (.space afterStar.chars :: .key .asWord "as" :: .space afterAs.chars ::
        .lexeme (.word none) own.chars :: .space after.chars :: .key .fromWord "from" :: rest) :=
      ⟨afterStar.space, firm_key (by simp [Keyword.spellings]) (by decide)
        (stopsWords_space afterAs.space afterAs.nonempty _) ⟨afterAs.space, name own after⟩⟩
    exact ⟨before.space, firm_times afterStar.space afterStar.nonempty as⟩
  | names list after =>
    have whole : (names list after).stretches ++ rest =
        list.stretches ++ Stretch.space after.chars :: .key .fromWord "from" :: rest := by
      simp [stretches]
    rw [whole]
    exact list.firm_append (from' after)

end Clause

namespace Subject

variable {rest : List Stretch}

theorem stopsWords_append (s : Subject) (stops : StopsWords rest) :
    StopsWords (s.stretches ++ rest) := by
  cases s with
  | nothing => exact stops
  | values clause => exact clause.stopsWords_append rest
  | types before => exact stopsWords_space before.space before.nonempty _

theorem firm_append (s : Subject) (stops : StopsWords rest) (later : Firm rest) :
    Firm (s.stretches ++ rest) := by
  cases s with
  | nothing => exact later
  | values clause => exact clause.firm_append stops later
  | types before clause =>
    exact ⟨before.space, firm_key (by simp [Keyword.spellings]) (by decide)
      (clause.stopsWords_append rest) (clause.firm_append stops later)⟩

end Subject

/-- **The lexemes of a line** are scanned, whatever stands behind it. -/
theorem ImportLine.firm (l : ImportLine) : Firm l.stretches := by
  have ending : Firm l.ending := ⟨l.afterPath.space, firm_shortMark (by decide) trivial⟩
  have quoted : Firm (.lexeme .string l.quotedPath :: l.ending) :=
    ⟨fun behind => takes_string l.isQuote (l.plain.isQuoted l.isQuote) _, ending⟩
  have stops : StopsWords (.lexeme .string l.quotedPath :: l.ending) := by
    refine stopsWords_cons ?_ l.ending
    rcases l.isQuote with is | is <;> simp [StopsWord, chars, quotedPath, is, isIdentifierPart]
  have stops' := StopsWords.space l.beforePath.space stops
  have subject := l.subject.firm_append stops' ⟨l.beforePath.space, quoted⟩
  have whole : l.stretches =
      .space l.front.chars :: .key .importWord "import" :: (l.subject.stretches ++
        Stretch.space l.beforePath.chars :: .lexeme .string l.quotedPath :: l.ending) := by
    simp [stretches, upToPath, opening]
  rw [whole]
  exact ⟨l.front.space, firm_key (by simp [Keyword.spellings]) (by decide)
    (l.subject.stopsWords_append stops') subject⟩

/-! ### Positions -/

theorem NameList.closes_eq (l : NameList) (position : Nat) :
    position + Text.size (text l.stretches) = l.closes position + 1 := by
  have parts : text l.stretches =
      l.before.chars ++ ("\x7b".toList ++ (text (Specifier.layout l.specifiers) ++
        (l.closing.chars ++ "\x7d".toList))) := by
    simp [stretches, chars, Stretch.mark]
  have opening : Text.size "\x7b".toList = 1 := rfl
  have closing : Text.size "\x7d".toList = 1 := rfl
  rw [parts, Text.size_append, Text.size_append, Text.size_append, Text.size_append, closes, opens]
  omega

namespace ImportLine

variable (l : ImportLine) (position : Nat)

theorem start_node : (l.node position).start = position + Text.size l.front.chars := rfl

theorem subjectStart_eq : l.subjectStart position = position + Text.size (text l.opening) := by
  have parts : text l.opening = l.front.chars ++ "import".toList := by
    simp [opening, chars, Stretch.key]
  have keyword : Text.size "import".toList = 6 := rfl
  rw [parts, Text.size_append, subjectStart, keyword, Nat.add_assoc]

theorem pathStart_eq :
    l.pathStart position + Text.size l.quotedPath = position + Text.size (text l.upToPath) := by
  have parts : text l.upToPath =
      text l.opening ++ (text l.subject.stretches ++ (l.beforePath.chars ++ l.quotedPath)) := by
    simp [upToPath, chars]
  rw [parts, Text.size_append, Text.size_append, Text.size_append, pathStart, subjectStart_eq]
  omega

theorem endsInSemicolon_node : (l.node position).EndsInSemicolon :=
  ⟨by simp [node, Node.branch, Node.kind, Node.label], _, _, _, rfl⟩

/-- A line ends with its semicolon. -/
theorem stop_node : (l.node position).stop = position + Text.size (text l.stretches) := by
  have ending : Text.size (text l.ending) = Text.size l.afterPath.chars + 1 := by
    rw [show text l.ending = l.afterPath.chars ++ ";".toList from rfl, Text.size_append]
    rfl
  have stop : (l.node position).stop = l.semicolon position + 1 := by
    simp [node, Node.branch, Node.leaf, Node.stop, Node.label]
  rw [stop, semicolon, pathStart_eq, stretches, text_append, Text.size_append, ending]
  omega

end ImportLine

/-! ### Reading a line -/

namespace Specifier

/-- A name in braces is read up to the comma or the brace behind it. -/
theorem reads_name (renamed : Option Alias) {t u : Token} (word : t.isWord = true)
    (ends : u.kind = .mark .comma ∨ u.kind = .mark .closeBrace) (rest : List Token) :
    Phrase.Reads (Phrase.first [Phrase.mark .comma, Rules.importSpecifier])
      (t :: (tokensFrom t.stop false (Alias.stretches renamed) ++ u :: rest))
      [.branch .importSpecifier
        ((Node.leaf .identifier t.start t.stop).withField .name :: Alias.nodes t.stop renamed)]
      (u :: rest) := by
  have read : Rules.importSpecifier
      (t :: (tokensFrom t.stop false (Alias.stretches renamed) ++ u :: rest)) =
      some ([.branch .importSpecifier
        ((Node.leaf .identifier t.start t.stop).withField .name :: Alias.nodes t.stop renamed)],
        u :: rest) := by
    cases renamed with
    | none => exact Grammar.importSpecifier_word word ends rest
    | some => exact Grammar.importSpecifier_renamed word rfl rfl (u :: rest)
  obtain ⟨keyword, kind⟩ := Token.isWord_iff.mp word
  refine .single (by simp [kind, read]) ?_
  simp only [List.length_cons, List.length_append]
  omega

theorem reads_layout {specifiers : List Specifier} (separated : Separated specifiers)
    (position : Nat) (afterBreak : Bool) {c : Token} (closes : c.kind = .mark .closeBrace)
    (rest : List Token) :
    Phrase.Reads (Phrase.first [Phrase.mark .comma, Rules.importSpecifier])
      (tokensFrom position afterBreak (layout specifiers) ++ c :: rest)
      (nodesFrom position specifiers) (c :: rest) := by
  induction specifiers generalizing position afterBreak with
  | nil => exact .nil (c :: rest)
  | cons s later ih =>
    obtain ⟨separated, last⟩ := separated_cons separated
    let start := position + Text.size s.before.chars
    obtain ⟨afterBreak', tokens⟩ := tokensFrom_append (start + Text.size s.name) false
      (Alias.stretches s.renamed)
      (.space s.after.chars :: ((if s.comma then [Stretch.mark .comma ","] else []) ++ layout later))
    have whole : tokensFrom position afterBreak (layout (s :: later)) =
        ⟨.word (Keyword.ofChars? s.name), start, start + Text.size s.name,
            afterBreak || s.before.chars.any isLineBreak⟩ ::
          tokensFrom (start + Text.size s.name) false (Alias.stretches s.renamed ++
            Stretch.space s.after.chars ::
              ((if s.comma then [Stretch.mark .comma ","] else []) ++ layout later)) := by
      rw [layout_cons, stretches, List.cons_append, List.cons_append, List.append_assoc]
      rfl
    rw [whole, tokens, nodesFrom, nodes, List.cons_append, List.append_assoc]
    cases comma : s.comma with
    | true =>
      have next : position + Text.size (text s.stretches) =
          start + Text.size s.name + Text.size (text (Alias.stretches s.renamed)) +
            Text.size s.after.chars + Text.size ",".toList := by
        simp [start, stretches, comma, chars, Stretch.mark]
        omega
      rw [next]
      exact (reads_name s.renamed rfl (.inl rfl) _).trans
        ((Grammar.reads_comma _ rfl _).trans (ih separated _ false))
    | false =>
      obtain rfl := last comma
      exact reads_name s.renamed rfl (.inr closes) rest

end Specifier

/-- Names in braces are read. -/
theorem NameList.read (l : NameList) (position : Nat) (afterBreak : Bool) (rest : List Token) :
    Rules.namedImports (tokensFrom position afterBreak l.stretches ++ rest) =
      some ([l.node position], rest) := by
  obtain ⟨afterBreak', names⟩ := tokensFrom_append (l.opens position + 1) false
    (Specifier.layout l.specifiers) [.space l.closing.chars, .mark .closeBrace "\x7d"]
  have whole : tokensFrom position afterBreak l.stretches =
      ⟨.mark .openBrace, l.opens position, l.opens position + 1,
          afterBreak || l.before.chars.any isLineBreak⟩ ::
        tokensFrom (l.opens position + 1) false
          (Specifier.layout l.specifiers ++
            [Stretch.space l.closing.chars, .mark .closeBrace "\x7d"]) := rfl
  rw [whole, names, List.cons_append, List.append_assoc]
  exact Grammar.namedImports_of_reads rfl
    (Specifier.reads_layout l.separated (l.opens position + 1) false rfl rest) rfl

/-- A clause is read up to the word in front of the path. -/
theorem Clause.read (c : Clause) (position : Nat) (afterBreak : Bool) (rest : List Token) :
    ∃ o tokens what f, tokensFrom position afterBreak c.stretches ++ rest = o :: tokens ∧
      o.kind ≠ .string ∧ o.kind ≠ .word (some .typeWord) ∧
      Rules.importClause (o :: tokens) = some ([what], f :: rest) ∧
      f.kind = .word (some .fromWord) ∧
      c.nodes position = [what, .leaf .keyword f.start f.stop] := by
  cases c with
  | default before name after =>
    exact ⟨_, _, _, _, rfl, by simp, by simp, Grammar.importClause_default rfl rfl rest, rfl, rfl⟩
  | all before afterStar afterAs name after =>
    exact ⟨_, _, _, _, rfl, by simp, by simp, Grammar.importClause_all rfl rfl rfl (_ :: rest),
      rfl, rfl⟩
  | names list after =>
    obtain ⟨afterBreak', tokens⟩ := tokensFrom_append position afterBreak list.stretches
      [.space after.chars, .key .fromWord "from"]
    have named := list.read position afterBreak
      (tokensFrom (position + Text.size (text list.stretches)) afterBreak'
        [.space after.chars, .key .fromWord "from"] ++ rest)
    rw [← List.append_assoc, ← tokens, list.closes_eq] at named
    exact ⟨_, _, _, _, rfl, by simp, by simp, Grammar.importClause_of_namedImports rfl named,
      rfl, rfl⟩

/-- **A line is read** as its statement, wherever it stands and whatever stands behind it. -/
theorem ImportLine.read_statement (l : ImportLine) (n position : Nat) (afterBreak : Bool)
    (rest : List Token) :
    Grammar.read (n + 1) .statement (tokensFrom position afterBreak l.stretches ++ rest) =
      some ([l.node position], rest) := by
  -- how many tokens stand in front of the path depends on the names, so they are kept apart from
  -- those behind it, whose positions are known from the size of the text
  let tail : List Stretch :=
    .space l.beforePath.chars :: .lexeme .string l.quotedPath :: l.ending
  obtain ⟨afterBreak', tokens⟩ :=
    tokensFrom_append (l.subjectStart position) false l.subject.stretches tail
  have whole : tokensFrom position afterBreak l.stretches =
      ⟨.word (some .importWord), position + Text.size l.front.chars, l.subjectStart position,
          afterBreak || l.front.chars.any isLineBreak⟩ ::
        tokensFrom (l.subjectStart position) false (l.subject.stretches ++ tail) := by
    have parts : l.stretches = l.opening ++ (l.subject.stretches ++ tail) := by
      simp [stretches, upToPath, tail]
    rw [parts]
    rfl
  rw [whole, tokens, List.cons_append, List.append_assoc]
  let last := tokensFrom (l.subjectStart position + Text.size (text l.subject.stretches)) afterBreak'
    tail ++ rest
  show Grammar.read (n + 1) .statement (_ :: (_ ++ last)) = _
  cases subject : l.subject with
  | nothing =>
    have nodes : l.subject.nodes (l.subjectStart position) = [] := by rw [subject]; rfl
    rw [node, nodesUpToPath, nodes]
    exact Grammar.read_bareImport n rfl rfl rfl rest
  | values clause =>
    obtain ⟨o, later, what, f, eq, no_string, no_type, reads, from', nodes⟩ :=
      clause.read (l.subjectStart position) false last
    have nodes' : l.subject.nodes (l.subjectStart position) =
        [what, .leaf .keyword f.start f.stop] := by
      rw [subject]
      exact nodes
    rw [Subject.stretches, eq, node, nodesUpToPath, nodes']
    exact Grammar.read_importStatement n rfl rfl rfl no_string no_type reads from'
  | types before clause =>
    let type := l.subjectStart position + Text.size before.chars
    obtain ⟨o, later, what, f, eq, -, -, reads, from', nodes⟩ := clause.read (type + 4) false last
    have nodes' : l.subject.nodes (l.subjectStart position) =
        [.leaf .keyword type (type + 4), what, .leaf .keyword f.start f.stop] := by
      rw [subject]
      exact congrArg (_ :: ·) nodes
    have tokens' :
        tokensFrom (l.subjectStart position) false (Subject.types before clause).stretches ++ last =
          ⟨.word (some .typeWord), type, type + 4, false || before.chars.any isLineBreak⟩ ::
            (o :: later) := by
      rw [← eq]
      rfl
    rw [tokens', node, nodesUpToPath, nodes']
    exact Grammar.read_typeImport n rfl rfl rfl rfl reads from'

end ModelGrid.Syntax
