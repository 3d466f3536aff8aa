import ModelGrid.Proofs.Component.Contribution
import ModelGrid.Proofs.Syntax.Layout
import ModelGrid.Proofs.Syntax.Literal
import ModelGrid.Proofs.Syntax.Place
import ModelGrid.Proofs.Syntax.Value

/-!
# Columns read back

The statement that registers a column, laid out with its title and name open, and what the grammar
makes of it wherever it stands.  The title and the name are put between single quotes as they are, so
the statement says what it is meant to say only where both are plain between quotes.  A line of a
source cannot end inside them and a name has no blanks; an apostrophe, a backslash and a carriage
return in a title are what is left.

## Main definitions

* `Layout.columnStatement`, `Layout.columnNode`: the layout and the tree of a column.
* `Document.registration?`: what a file says that is one call with a new object.

## Main results

* `Layout.read_column`: how the grammar reads a column.
* `registration?_columnStatement`: a column of plain texts is one call, whose constructor is handed
  the title and the name.
* `registration?_of_readSource`: the columns of a source.
-/

namespace ModelGrid.Component

open Syntax Grammar Stretch

namespace Layout

/-- The statement that registers a column. -/
def columnStatement (p : Model.Property) : List Stretch :=
  [word "stringIndexerHelper", mark .dot ".", word "addColumnItem", mark .openParen "(",
   key .newWord "new", gap " ", word "ColumnItemStrict", mark .openParen "(", quoted p.title,
   mark .comma ",", gap " ", quoted p.name, mark .comma ",", gap " ", key .nullWord "null",
   mark .comma ",", gap " ", quoted p.name, mark .comma ",", gap " ", key .nullWord "null",
   mark .comma ",", gap " ", key .nullWord "null", mark .closeParen ")", mark .closeParen ")",
   mark .semicolon ";"]

/-- The kinds of the tokens of such a statement. -/
def columnKinds : List TokenKind :=
  [.word none, .mark .dot, .word none, .mark .openParen, .word (some .newWord), .word none,
   .mark .openParen, .string, .mark .comma, .string, .mark .comma, .word (some .nullWord),
   .mark .comma, .string, .mark .comma, .word (some .nullWord), .mark .comma,
   .word (some .nullWord), .mark .closeParen, .mark .closeParen, .mark .semicolon]

/-- The tree of its tokens. -/
def columnNode (t : Nat → Token) : Node :=
  let leaf (kind : Kind) (i : Nat) : Node := .leaf kind (t i).start (t i).stop
  let callee : Node :=
    .branch .memberExpression
      [leaf .identifier 0, leaf .punctuation 1, leaf .propertyIdentifier 2]
  let values : Node :=
    .branch .arguments
      [leaf .punctuation 6, leaf .stringLiteral 7, leaf .punctuation 8, leaf .stringLiteral 9,
       leaf .punctuation 10, leaf .nullLiteral 11, leaf .punctuation 12, leaf .stringLiteral 13,
       leaf .punctuation 14, leaf .nullLiteral 15, leaf .punctuation 16, leaf .nullLiteral 17,
       leaf .punctuation 18]
  let made : Node :=
    .branch .newExpression
      [leaf .keyword 4, leaf .identifier 5, values.withField .arguments]
  let given : Node := .branch .arguments [leaf .punctuation 3, made, leaf .punctuation 19]
  .branch .expressionStatement
    [.branch .callExpression [callee.withField .function, given.withField .arguments],
     leaf .semicolon 20]

/-- The grammar reads such a statement wherever it stands. -/
theorem read_column (n : Nat) {t : Nat → Token}
    (kinds : ∀ i, (t i).kind = (columnKinds[i]?).getD .stray) (rest : List Token) :
    read (n + 16) .statement ((List.range' 0 21).map t ++ rest) =
      some ([columnNode t], rest) := by
  let from' (i : Nat) : List Token := (List.range' i (21 - i)).map t ++ rest
  have less (i j : Nat) (lt : i < j ∧ i < 21) : (from' j).length < (from' i).length := by
    simp [from']
    omega
  have comma (i : Nat) (kind : (t i).kind = .mark .comma) :=
    reads_comma (read (n + 5)).listEntry kind (from' (i + 1))
  have string (i : Nat) (kind : (t i).kind = .string) (ends : EndsValue (t (i + 1))) :=
    reads_argument (by simp [kind]) (by simp [kind])
      (read_assignment_string n (from' (i + 2)) kind ends) (by simp)
  have null (i : Nat) (kind : (t i).kind = .word (some .nullWord))
      (ends : EndsValue (t (i + 1))) :=
    reads_argument (by simp [kind]) (by simp [kind])
      (read_assignment_null n (from' (i + 2)) kind ends) (by simp)
  have values : Phrase.Reads (Phrase.first [Phrase.mark .comma, (read (n + 5)).listEntry])
      (from' 7) _ (from' 18) :=
    ((string 7 (kinds 7) (.of_kind (kinds 8))).trans (comma 8 (kinds 8))).trans <|
    ((string 9 (kinds 9) (.of_kind (kinds 10))).trans (comma 10 (kinds 10))).trans <|
    ((null 11 (kinds 11) (.of_kind (kinds 12))).trans (comma 12 (kinds 12))).trans <|
    ((string 13 (kinds 13) (.of_kind (kinds 14))).trans (comma 14 (kinds 14))).trans <|
    ((null 15 (kinds 15) (.of_kind (kinds 16))).trans (comma 16 (kinds 16))).trans <|
    null 17 (kinds 17) (.of_kind (kinds 18))
  have made := read_assignment_new_call (kinds 4) (kinds 5) (kinds 6)
    (arguments_of_reads (kinds 6) values (kinds 18)) (.of_kind (kinds 19))
  have no_mark (m : Punctuator) : (t 4).kind ≠ .mark m := by simp [kinds, columnKinds]
  have given := arguments_of_reads (kinds 3)
    (reads_argument (no_mark _) (no_mark _) made (less 4 19 (by decide))) (kinds 19)
  have dot : (t 1).kind = .mark .dot := kinds 1
  have call : Phrase.Extends (read (n + 10)).operandSuffix
      [.leaf .identifier (t 0).start (t 0).stop] (from' 1) _ (from' 20) :=
    .cons (operandSuffix_member _ _ dot (by simp [Token.isWord, kinds, columnKinds]) _)
      (less 1 3 (by decide)) <|
    .cons (operandSuffix_call _ (kinds 3) given) (less 3 20 (by decide)) (.nil _ _)
  have value := read_assignment_of_extends (kinds 0) (by simp [dot]) call (.of_kind (kinds 20))
  exact read_statement_of_expression (kinds 0) (by simp [dot])
    (read_expression_of_assignment value (.of_kind (kinds 20))) (kinds 20)

theorem text_column (p : Model.Property) :
    text (columnStatement p) = (Contribution.columnStatement p).toList := by
  unfold columnStatement Contribution.columnStatement
  simp only [key, Stretch.mark, Stretch.word, quoted, gap, text_cons, text_nil, chars,
    String.toList_append, List.append_assoc, List.append_nil]
  simp

theorem kinds_column (p : Model.Property) (position : Nat) (afterBreak : Bool) :
    (tokensFrom position afterBreak (columnStatement p)).map Token.kind = columnKinds := rfl

/-- A column scans if what its property says is plain. -/
theorem scans_column {p : Model.Property} (title : Lexeme.IsQuoted '\'' p.title.toList)
    (name : Lexeme.IsQuoted '\'' p.name.toList) {rest : List Stretch} (later : Scans rest) :
    Scans (columnStatement p ++ rest) := by
  simp only [columnStatement, List.cons_append, List.nil_append]
  repeat first
    | refine scans_gap (List.all_eq_true.mp (by decide)) ?_
    | refine scans_shortMark (by decide) ?_
    | refine scans_dot (by decide) ?_
    | refine scans_key (by simp [Keyword.spellings]) (by decide) (by decide) ?_
    | refine scans_name (by decide) (exists_isLower_eq_false (by decide)) (by decide) ?_
    | refine scans_quoted title ?_
    | refine scans_quoted name ?_
  exact later

end Layout

end ModelGrid.Component

namespace ModelGrid.Syntax

/-! ### What a registration says -/

/-- The one construct in a node, if it is of the kind. -/
def Node.only? (n : Node) (kind : Kind) : Option Node :=
  match n.constructs with
  | [child] => if child.kind == kind then some child else none
  | _ => none

/-- A call that hands over a new object. -/
structure Registration where
  /-- The characters of what is called. -/
  callee : List Char
  /-- The characters of the class of the object. -/
  made : List Char
  /-- For each argument of the constructor what it denotes, if it is a string literal. -/
  values : List (Option (List Nat))
  deriving DecidableEq, Repr

/-- What a file says that is one statement without errors: a call with one argument, which is a new
object. -/
def Document.registration? (file : Document) : Option Registration :=
  if file.root.hasFault then none
  else do
    let statement ← file.root.only? .expressionStatement
    let call ← statement.only? .callExpression
    let callee ← call.childOf? .function
    let given ← call.childOf? .arguments
    let made ← given.only? .newExpression
    let name ← made.constructs.head?
    let values ← made.childOf? .arguments
    return {
      callee := callee.chars file.text
      made := name.chars file.text
      values := values.constructs.map fun value =>
        if value.kind == .stringLiteral then Literal.value? (value.chars file.text) else none }

end ModelGrid.Syntax

namespace ModelGrid.Component

open Syntax Grammar Stretch Model

/-- What a file says whose one statement registers a column. -/
theorem registration?_columnNode (text : List Char) (t : Nat → Token) (stop : Nat) :
    Document.registration?
        ⟨text, .node { kind := .program, start := 0, stop } [Layout.columnNode t]⟩ =
      let covered (i : Nat) : List Char := Text.slice text (t i).start (t i).stop
      some
        { callee := Text.slice text (t 0).start (t 2).stop
          made := covered 5
          values :=
            [Literal.value? (covered 7), Literal.value? (covered 9), none,
             Literal.value? (covered 13), none, none] } :=
  rfl

/-- **A column is one call.**  The statement that registers a property whose title and name are plain
between single quotes reads as one call of a new object, and the first argument of its constructor
denotes the title, the second and the fourth the name. -/
theorem registration?_columnStatement {p : Property}
    (title : Lexeme.IsQuoted '\'' p.title.toList) (name : Lexeme.IsQuoted '\'' p.name.toList) :
    (Document.parse (Contribution.columnStatement p)).registration? =
      some
        { callee := "stringIndexerHelper.addColumnItem".toList
          made := "ColumnItemStrict".toList
          values :=
            [some (Text.utf16 p.title.toList), some (Text.utf16 p.name.toList), none,
             some (Text.utf16 p.name.toList), none, none] } := by
  let layout := Layout.columnStatement p
  let tokens := tokensFrom 0 false layout
  let t := Token.nth tokens
  have scan : Token.scan (Contribution.columnStatement p).toList = (tokens, []) := by
    have scans : Scans (layout ++ []) := Layout.scans_column title name trivial
    rw [List.append_nil] at scans
    rw [← Layout.text_column]
    exact scan_of_scans scans rfl
  have all : tokens = (List.range' 0 21).map t := Token.eq_map_nth tokens
  have kinds (i : Nat) : (t i).kind = (Layout.columnKinds[i]?).getD .stray := by
    rw [Token.kind_nth, Layout.kinds_column]
  have read := Layout.read_column 160 kinds []
  rw [List.append_nil, ← all] at read
  have program : program tokens = .branch .program [Layout.columnNode t] :=
    program_of_statements (.cons read (by simp) .nil) nofun
  -- the tree is that of the layout, and what it covers are the lexemes
  have reading := registration?_columnNode (text layout) t (Text.size (text layout))
  have callee : Text.slice (text layout) (t 0).start (t 2).stop =
      "stringIndexerHelper.addColumnItem".toList := by
    have front : text layout =
        [] ++ "stringIndexerHelper.addColumnItem".toList ++ text (layout.drop 3) := rfl
    rw [front]
    exact Text.slice_append [] _ _
  have plain (cs : String) (quoted : Lexeme.IsQuoted '\'' cs.toList) :
      Literal.value? ("'" ++ cs ++ "'").toList = some (Text.utf16 cs.toList) := by
    rw [String.toList_append, String.toList_append]
    exact (Literal.value?_eq_utf16_iff _).mpr quoted
  have cover (i : Nat) {cs : List Char} (lexeme : (lexemes layout)[i]? = some cs) :
      Text.slice (text layout) (t i).start (t i).stop = cs :=
    slice_nth lexeme
  rw [Document.parse_of_scan scan, program, ← Layout.text_column]
  refine reading.trans ?_
  simp only [callee, cover 5 rfl, cover 7 rfl, cover 9 rfl, cover 13 rfl, plain _ title,
    plain _ name]

/-- **The columns of a source.**  A property of a source is registered under its title and name if
there is no apostrophe or backslash in either and no carriage return in the title. -/
theorem registration?_of_readSource {source : String} {ps : List Property}
    (accepted : readSource source = .ok ps) {p : Property} (mem : p ∈ ps)
    (title : ∀ c ∈ p.title.toList, c ∉ ['\'', '\\', '\r'])
    (name : ∀ c ∈ p.name.toList, c ∉ ['\'', '\\']) :
    (Document.parse (Contribution.columnStatement p)).registration? =
      some
        { callee := "stringIndexerHelper.addColumnItem".toList
          made := "ColumnItemStrict".toList
          values :=
            [some (Text.utf16 p.title.toList), some (Text.utf16 p.name.toList), none,
             some (Text.utf16 p.name.toList), none, none] } := by
  have readable := Contribution.readable_of_readSource accepted p mem
  have not_blank (c : Char) (c_mem : c ∈ p.name.toList) : c ≠ '\n' ∧ c ≠ '\r' := by
    have solid := readable.name c c_mem
    constructor <;> (rintro rfl; revert solid; decide)
  refine registration?_columnStatement (fun c c_mem => ?_) fun c c_mem => ?_
  · have plain := title c c_mem
    simp only [List.mem_cons, List.not_mem_nil, or_false, not_or] at plain
    exact ⟨plain.1, plain.2.1, fun feed => readable.title (feed ▸ c_mem), plain.2.2⟩
  · have plain := name c c_mem
    simp only [List.mem_cons, List.not_mem_nil, or_false, not_or] at plain
    exact ⟨plain.1, plain.2, not_blank c c_mem⟩

/-- A title with a character of two bytes and one of two code units, and with quotes that do not end
it. -/
theorem registration?_of_readSource_quotes :
    let p : Property := ⟨"size", .number, "Größe \"m\" 😀"⟩
    readSource "[Column(\"Größe \"m\" 😀\")]\npublic int Size \x7b get; set; \x7d\n" = .ok [p] ∧
      (Document.parse (Contribution.columnStatement p)).registration? =
        some
          { callee := "stringIndexerHelper.addColumnItem".toList
            made := "ColumnItemStrict".toList
            values :=
              [some (Text.utf16 p.title.toList), some (Text.utf16 p.name.toList), none,
               some (Text.utf16 p.name.toList), none, none] } := by
  intro p
  have accepted :
      readSource "[Column(\"Größe \"m\" 😀\")]\npublic int Size \x7b get; set; \x7d\n" = .ok [p] := by
    decide +kernel
  have title : (p.title.toList.all fun c => decide (c ∉ ['\'', '\\', '\r'])) = true := by decide
  have name : (p.name.toList.all fun c => decide (c ∉ ['\'', '\\'])) = true := by decide
  exact ⟨accepted, registration?_of_readSource accepted List.mem_cons_self
    (fun c mem => of_decide_eq_true (List.all_eq_true.mp title c mem))
    fun c mem => of_decide_eq_true (List.all_eq_true.mp name c mem)⟩

/-- An apostrophe ends the title, and what is left is no call; a backslash begins an escape. -/
theorem registration?_ne_of_escapes :
    readSource "[Column(\"It's\")]\npublic int Age \x7b get; set; \x7d\n" =
        .ok [⟨"age", .number, "It's"⟩] ∧
      (Document.parse (Contribution.columnStatement ⟨"age", .number, "It's"⟩)).registration? =
        none ∧
      readSource "[Column(\"a\\tb\")]\npublic int Age \x7b get; set; \x7d\n" =
        .ok [⟨"age", .number, "a\\tb"⟩] ∧
      ((Document.parse (Contribution.columnStatement ⟨"age", .number, "a\\tb"⟩)).registration?.map
          fun r => r.values.head?) =
        some (some (some (Text.utf16 "a\tb".toList))) := by
  decide +kernel

end ModelGrid.Component
