import ModelGrid.Component.Skeleton
import ModelGrid.Proofs.Component.Statement
import ModelGrid.Proofs.Component.Template
import ModelGrid.Proofs.Naming
import ModelGrid.Proofs.Syntax.Layout

/-!
# Layouts of the skeletons

The skeletons of the data service and of the constants, laid out with the names open.  Each layout is
cut where its anchor is: the front is all up to the anchor.  The shapes of the tokens do not depend
on the names, so the tree that the grammar makes of them leads to the token that the front ends with,
whatever the component and its model are called.

## Main definitions

* `Layout.dataServiceFront`, `Layout.dataServiceBack`, `Layout.constantsFront`,
  `Layout.constantsBack`: the layouts.
* `Values.Fit`: values that are words where the skeletons have words.

## Main results

* `Layout.offset?_dataService`, `Layout.offset?_constants`: the anchors are where the fronts end.
-/

namespace ModelGrid.Component

open Syntax

/-- The values are words, and the name in paths has no more than paths need. -/
structure Values.Fit (p : Values) : Prop where
  className : Naming.IsCapitalized p.className.toList
  modelName : Naming.IsCapitalized p.modelName.toList
  modelFileName : Naming.IsDashed p.modelFileName.toList

namespace Layout

open Stretch Grammar Edit.Anchor

/-! ### The data service -/

/-- The data service up to the statement in front of its `return`. -/
def dataServiceFront (p : Values) : List Stretch :=
  [key .importWord "import", gap " ", mark .openBrace "\x7b", gap " ", word "Injectable", gap " ",
   mark .closeBrace "\x7d", gap " ", key .fromWord "from", gap " ", quoted "@angular/core",
   mark .semicolon ";", gap "\n",
   key .importWord "import", gap " ", mark .openBrace "\x7b", gap " ", word "ColumnItemStrict",
   mark .comma ",", gap " ", word "StringIndexerHelper", gap " ", mark .closeBrace "\x7d", gap " ",
   key .fromWord "from", gap " ", quoted "ui-lib", mark .semicolon ";", gap "\n\n",
   mark .decorator "@", word "Injectable", mark .openParen "(", mark .openBrace "\x7b", gap "\n\t",
   word "providedIn", mark .colon ":", gap " ", quoted "root", gap "\n", mark .closeBrace "\x7d",
   mark .closeParen ")", gap "\n",
   key .exportWord "export", gap " ", key .classWord "class", gap " ",
   word (p.className ++ "DataService"), gap " ", mark .openBrace "\x7b", gap "\n\n\t",
   word "getColumns", mark .openParen "(", mark .closeParen ")", mark .colon ":", gap " ",
   word "StringIndexerHelper", mark .less "<", word "ColumnItemStrict", mark .greater ">", gap " ",
   mark .openBrace "\x7b", gap "\n\t\t",
   key .constWord "const", gap " ", word "stringIndexerHelper", gap " ", mark .assign "=", gap " ",
   key .newWord "new", gap " ", word "StringIndexerHelper", mark .less "<", word "ColumnItemStrict",
   mark .greater ">", mark .openParen "(", mark .closeParen ")", mark .semicolon ";"]

/-- The data service from the white space in front of its `return` on. -/
def dataServiceBack : List Stretch :=
  [gap "\n\t\t", key .returnWord "return", gap " ", word "stringIndexerHelper", mark .semicolon ";",
   gap "\n\t", mark .closeBrace "\x7d", gap "\n", mark .closeBrace "\x7d", gap "\n"]

/-- The shapes of the data service's tokens. -/
def dataServiceShape : List (TokenKind × Bool) :=
  [(.word (some .importWord), false), (.mark .openBrace, false), (.word none, false),
   (.mark .closeBrace, false), (.word (some .fromWord), false), (.string, false),
   (.mark .semicolon, false),
   (.word (some .importWord), true), (.mark .openBrace, false), (.word none, false),
   (.mark .comma, false), (.word none, false), (.mark .closeBrace, false),
   (.word (some .fromWord), false), (.string, false), (.mark .semicolon, false),
   (.mark .decorator, true), (.word none, false), (.mark .openParen, false),
   (.mark .openBrace, false), (.word none, true), (.mark .colon, false), (.string, false),
   (.mark .closeBrace, true), (.mark .closeParen, false),
   (.word (some .exportWord), true), (.word (some .classWord), false), (.word none, false),
   (.mark .openBrace, false),
   (.word none, true), (.mark .openParen, false), (.mark .closeParen, false), (.mark .colon, false),
   (.word none, false), (.mark .less, false), (.word none, false), (.mark .greater, false),
   (.mark .openBrace, false),
   (.word (some .constWord), true), (.word none, false), (.mark .assign, false),
   (.word (some .newWord), false), (.word none, false), (.mark .less, false), (.word none, false),
   (.mark .greater, false), (.mark .openParen, false), (.mark .closeParen, false),
   (.mark .semicolon, false),
   (.word (some .returnWord), true), (.word none, false), (.mark .semicolon, false),
   (.mark .closeBrace, true), (.mark .closeBrace, true)]

/-- The end of the last of the trees, or of what is in front of them if there are none. -/
def lastStop (start : Nat) (nodes : List Node) : Nat :=
  (nodes.getLast?.map Node.lastTokenStop).getD start

theorem lastStop_append (start : Nat) (front back : List Node) :
    lastStop start (front ++ back) = lastStop (lastStop start front) back := by
  rcases back.eq_nil_or_concat' with rfl | ⟨front', last, rfl⟩
  · simp [lastStop]
  · simp [lastStop, ← List.append_assoc]

/-- A search for a `return` passes over the trees, and none of them is a comment.  The token in front
of what follows them ends at `stop` if the one in front of them ends at `start`. -/
structure PassedUpTo (start stop : Nat) (nodes : List Node) : Prop where
  all_over : Node.allKindsIn passesOver nodes = true
  no_extra : ∀ node ∈ nodes, node.isExtra = false
  ends : lastStop start nodes = stop

namespace PassedUpTo

variable {start middle stop : Nat} {front back : List Node}

theorem nil (start : Nat) : PassedUpTo start start [] := ⟨rfl, nofun, rfl⟩

theorem append (passed : PassedUpTo start middle front) (later : PassedUpTo middle stop back) :
    PassedUpTo start stop (front ++ back) := by
  refine ⟨by simp [passed.all_over, later.all_over], fun node mem => ?_, ?_⟩
  · exact (List.mem_append.mp mem).elim (passed.no_extra node) (later.no_extra node)
  · rw [lastStop_append, passed.ends, later.ends]

/-- In a block, the search finds the `return` behind what it passes over, and the token in front of that
is the last one of what is passed over. -/
theorem finds_isReturn (passed : PassedUpTo start stop front) (nonempty : front ≠ [])
    (brace keyword close : Token) (rest : List Node) :
    Finds isReturn (fun p => p.leadingStart = stop)
      (.branch .statementBlock (.leaf .openBrace brace.start brace.stop ::
        (front ++ [.branch .returnStatement (.leaf .returnKeyword keyword.start keyword.stop :: rest)]) ++
          [.leaf .punctuation close.start close.stop])) := by
  obtain ⟨front, last, rfl⟩ := front.eq_nil_or_concat'.resolve_left nonempty
  have all_over := passed.all_over
  rw [Node.allKindsIn_append, Node.allKindsIn_cons, Bool.and_eq_true, Bool.and_eq_true] at all_over
  have brace_over :
      Node.allKindsIn passesOver (.leaf .openBrace brace.start brace.stop :: front) = true := by
    simp [all_over.1, passesOver]
  have found := finds_return brace_over all_over.2.1 (passed.no_extra last (by simp))
    keyword.start keyword.stop rest [.leaf .punctuation close.start close.stop]
  have last_stop : last.lastTokenStop = stop := by
    rw [← passed.ends]
    simp [lastStop]
  rw [last_stop] at found
  simpa using found

end PassedUpTo

/-- The tokens of a data service are those of statements, whatever statements there are in front of its
`return` as long as the search passes over them; the first `return` is behind them. -/
theorem statements_dataService (n : Nat) {t : Nat → Token}
    (shapes : ∀ i, (t i).shape = (dataServiceShape[i]?).getD (.stray, false))
    {tokens : List Token} {columns : List Node} {stop : Nat}
    (reads : Phrase.Reads (read (n + 19) .statement) tokens columns ((List.range' 49 5).map t))
    (columns_passed : PassedUpTo (t 48).stop stop columns) :
    ∃ nodes, Statements (n + 20) ((List.range' 0 49).map t ++ tokens) nodes ∧
      Finds isReturn (fun p => p.leadingStart = stop) (.branch .program nodes) := by
  have kind (i : Nat) : (t i).kind = ((dataServiceShape[i]?).getD (.stray, false)).1 :=
    congrArg Prod.fst (shapes i)
  have line (i : Nat) : (t i).afterBreak = ((dataServiceShape[i]?).getD (.stray, false)).2 :=
    congrArg Prod.snd (shapes i)
  let from' (i : Nat) : List Token := (List.range' i (49 - i)).map t ++ tokens
  have less (i j : Nat) (lt : i < j ∧ i < 49) : (from' j).length < (from' i).length := by
    simp [from']
    omega
  obtain ⟨names, clause, passed⟩ := namedImports_one (kind 1) (kind 2) (kind 3) (from' 4)
  obtain ⟨first, read_first, first_over⟩ :=
    read_import (n + 19) (kind 0) (kind 1) clause passed (kind 4) (kind 5) (kind 6)
  obtain ⟨names', clause', passed'⟩ :=
    namedImports_two (kind 8) (kind 9) (kind 12) (kind 10) (kind 11) (from' 13)
  obtain ⟨second, read_second, second_over⟩ :=
    read_import (n + 19) (kind 7) (kind 8) clause' passed' (kind 13) (kind 14) (kind 15)
  obtain ⟨decorated, decorator, decorated_over⟩ :=
    decorator_call (kind 19) (kind 20) (kind 21) (kind 22) (kind 23) (n + 10) (from' 25) (kind 16)
      (kind 17) (kind 18) (kind 24)
  obtain ⟨parameters, result, signature, parameters_over, result_over⟩ :=
    signature_generic (n + 15) (from' 38) (kind 30) (kind 31) (kind 32) (kind 33) (kind 34)
      (line 34) (kind 35) (kind 36) (.of_mark (kind 37))
  obtain ⟨value, new, value_over⟩ :=
    read_assignment_new (n + 11) (from' 49) (kind 41) (kind 42) (kind 43) (kind 44) (kind 45)
      (kind 46) (kind 47) (closes_of_kind (kind 48))
  obtain ⟨constant, const, constant_over, no_extra, constant_stop⟩ :=
    read_const (kind 38) (kind 39) (kind 40) new value_over (kind 48)
  have name := read_expression_name (n + 12) [t 52, t 53] (kind 50) (closes_of_kind (kind 51))
  have return' := read_return (kind 49) (line 50) name (semicolon_of_mark (kind 51) [t 52, t 53])
  have body : Phrase.Reads (read (n + 19) .statement) (from' 38)
      ([constant] ++ columns) _ :=
    .cons const (by simp [from']) reads
  -- the `return` is behind the last column, or behind the constant if there is none
  have passed_all : PassedUpTo (t 48).stop stop ([constant] ++ columns) :=
    .append ⟨by simp [constant_over], by simp [no_extra], constant_stop⟩ columns_passed
  have block := block_of_reads (kind 37) (kind 52) (body.trans (.single return' (by simp)))
  have method := classMember_method (kind 29) (kind 30) signature block (kind 53)
  have tail := classTail_of_member (kind 28) (kind 53) method (by simp)
  have third := read_decorated (kind 16) decorator (by simp [from']; omega) (kind 25) (kind 26)
    (kind 27) tail
  refine ⟨[first, second, _],
    .cons read_first (less 0 7 (by decide))
      (.cons read_second (less 7 16 (by decide)) (.cons third (by simp) .nil)), ?_⟩
  have step (kind : Kind) (passed : passesOver kind = true) (front back : List Node)
      (all : Node.allKindsIn passesOver front = true) {child : Node}
      (finds : Finds isReturn (fun p => p.leadingStart = stop) child) :=
    finds.branch searches_isReturn passed front back all
  have in_block := passed_all.finds_isReturn (by simp) (t 37) (t 49) (t 52)
    [.leaf .identifier (t 50).start (t 50).stop, .leaf .semicolon (t 51).start (t 51).stop]
  have in_method := step .methodDefinition rfl
    [.leaf .propertyIdentifier (t 29).start (t 29).stop, parameters, result] []
    (by simp [parameters_over, result_over, passesOver]) (in_block.withField .body)
  have in_body := step .classBody rfl [.leaf .openBrace (t 28).start (t 28).stop]
    [.leaf .punctuation (t 53).start (t 53).stop] (by simp [passesOver]) in_method
  have in_class := step .classDeclaration rfl
    [.leaf .keyword (t 26).start (t 26).stop, .leaf .typeIdentifier (t 27).start (t 27).stop] []
    (by simp [passesOver]) (in_body.withField .body)
  have in_export := step .exportStatement rfl
    [decorated, .leaf .keyword (t 25).start (t 25).stop] []
    (by simp [decorated_over, passesOver]) in_class
  exact step .program rfl [first, second] [] (by simp [first_over, second_over]) in_export

set_option maxRecDepth 4000 in
theorem text_dataService (p : Values) :
    text (dataServiceFront p ++ dataServiceBack) = (Piece.filled p Skeleton.dataService).toList := by
  simp only [dataServiceFront, dataServiceBack, key, Stretch.mark, Stretch.word, Stretch.quoted, gap,
    List.cons_append, List.nil_append, text_cons, text_nil, chars, ← String.toList_append,
    List.append_nil, String.append_assoc, Piece.filled, Skeleton.dataService, List.map_cons,
    List.map_nil, Piece.fill, Values.value, String.join_cons, String.join_nil, String.append_empty]
  exact congrArg String.toList rfl

/-- The tokens of a data service with other statements in front of its `return`. -/
theorem tokensFrom_dataServiceFront (p : Values) (rest : List Stretch) :
    tokensFrom 0 false (dataServiceFront p ++ rest) =
      tokensFrom 0 false (dataServiceFront p) ++
        tokensFrom (Text.size (text (dataServiceFront p))) false rest := by
  have cut := tokensFrom_append_lexeme 0 false (dataServiceFront p).dropLast (.mark .semicolon)
    ";".toList rest
  rwa [Nat.zero_add] at cut

theorem shape_dataService (p : Values) (position : Nat) (afterBreak : Bool) :
    (tokensFrom 0 false (dataServiceFront p) ++
      tokensFrom position afterBreak dataServiceBack).map Token.shape = dataServiceShape := by
  cases afterBreak <;> rfl

set_option maxRecDepth 4000 in
theorem scans_dataServiceFront {p : Values} (fit : p.Fit) {rest : List Stretch}
    (later : Scans rest) : Scans (dataServiceFront p ++ rest) := by
  obtain ⟨is, mixed⟩ : Lexeme.IsWord (p.className ++ "DataService").toList ∧
      ∃ c ∈ (p.className ++ "DataService").toList, c.isLower = false := by
    rw [String.toList_append]
    exact Lexeme.isWord_around [] "DataService".toList fit.className (by simp)
      (List.all_eq_true.mp (by decide))
  simp only [dataServiceFront, List.cons_append, List.nil_append]
  repeat first
    | refine scans_gap (List.all_eq_true.mp (by decide)) ?_
    | refine scans_shortMark (by decide) ?_
    | refine scans_key (by simp [Keyword.spellings]) (by decide) (by decide) ?_
    | refine scans_name is mixed (by decide) ?_
    | refine scans_name (by decide) (exists_isLower_eq_false (by decide)) (by decide) ?_
    | refine scans_quoted (by decide) ?_
    | refine scans_mark rfl (by decide) rfl ?_
  exact later

theorem scans_dataServiceBack : Scans dataServiceBack := by
  unfold dataServiceBack
  repeat first
    | refine scans_gap (List.all_eq_true.mp (by decide)) ?_
    | refine scans_shortMark (by decide) ?_
    | refine scans_key (by simp [Keyword.spellings]) (by decide) (by decide) ?_
    | refine scans_name (by decide) (exists_isLower_eq_false (by decide)) (by decide) ?_
  trivial

/-- From the position on, in front of the back, there are statements that the search for a `return`
passes over, and the last of them ends at `stop`. -/
def StatementsUpTo (position stop : Nat) (columns : List Stretch) : Prop :=
  ∀ n, ∃ nodes behind afterBreak,
    Phrase.Reads (read (n + 19) .statement)
        (tokensFrom position false (columns ++ dataServiceBack)) nodes
        (tokensFrom behind afterBreak dataServiceBack) ∧
      PassedUpTo position stop nodes

theorem statementsUpTo_nil (position : Nat) : StatementsUpTo position position [] :=
  fun _ => ⟨[], position, false, .nil _, .nil _⟩

/-- **The anchor of a data service** is where the statement in front of its `return` ends, whatever
statements were put there. -/
theorem offset?_dataService {p : Values} (fit : p.Fit) (columns : List Stretch)
    (scans : Scans (columns ++ dataServiceBack)) {stop : Nat}
    (statements : StatementsUpTo (Text.size (text (dataServiceFront p))) stop columns) {file : String}
    (is_file : file.toList = text (dataServiceFront p ++ (columns ++ dataServiceBack))) :
    beforeReturn.offset? (Document.parse file) = some stop := by
  let front := tokensFrom 0 false (dataServiceFront p)
  let middle := tokensFrom (Text.size (text (dataServiceFront p))) false (columns ++ dataServiceBack)
  have scan : Token.scan file.toList = (front ++ middle, []) := by
    rw [is_file, scan_of_scans (scans_dataServiceFront fit scans) rfl, tokensFrom_dataServiceFront]
  have long : front.length = 49 := rfl
  obtain ⟨n, fuel⟩ : ∃ n, goalsPerToken * ((front ++ middle).length + 1) = n + 20 :=
    ⟨_, (Nat.sub_add_cancel (by rw [List.length_append, long, goalsPerToken]; omega)).symm⟩
  obtain ⟨columns, behind, afterBreak, reads, passed⟩ := statements n
  let back := tokensFrom behind afterBreak dataServiceBack
  let t := Token.nth (front ++ back)
  have shapes (i : Nat) : (t i).shape = (dataServiceShape[i]?).getD (.stray, false) := by
    rw [Token.shape_nth, shape_dataService]
  have front_eq : front = (List.range' 0 49).map t := Token.eq_map_nth_left front back
  have back_eq : back = (List.range' 49 5).map t := Token.eq_map_nth_right front back
  rw [show tokensFrom behind afterBreak dataServiceBack = (List.range' 49 5).map t from back_eq]
    at reads
  have last : (t 48).stop = Text.size (text (dataServiceFront p)) := by
    rw [show t 48 = Token.nth front 48 from Token.nth_append_left (by omega) back]
    have ends := stop_nth 0 false (dataServiceFront p).dropLast (.mark .semicolon) ";".toList []
      (i := 48) rfl
    rwa [Nat.zero_add] at ends
  rw [← last] at passed
  obtain ⟨nodes, statements, finds⟩ := statements_dataService n shapes reads passed
  rw [← front_eq, ← fuel] at statements
  have program : program (front ++ middle) = .branch .program nodes :=
    program_of_statements statements nofun
  refine offset?_beforeReturn scan ?_
  rw [program]
  exact finds

/-! ### The constants -/

/-- The constants up to the brace that opens the body of the mapping function. -/
def constantsFront (p : Values) : List Stretch :=
  [key .importWord "import", gap " ", mark .openBrace "\x7b", gap " ", word "formatDate", gap " ",
   mark .closeBrace "\x7d", gap " ", key .fromWord "from", gap " ", quoted "@angular/common",
   mark .semicolon ";", gap "\n\n",
   key .importWord "import", gap " ", mark .openBrace "\x7b", gap " ", word p.modelName, gap " ",
   mark .closeBrace "\x7d", gap " ", key .fromWord "from", gap " ", quoted ("./" ++ p.modelFileName),
   mark .semicolon ";", gap "\n\n",
   key .exportWord "export", gap " ", key .constWord "const", gap " ",
   word ("mapTo" ++ p.modelName ++ "Row"), gap " ", mark .assign "=", gap " ",
   mark .openParen "(", word "dto", mark .colon ":", gap " ", word p.modelName, mark .closeParen ")",
   mark .colon ":", gap " ", mark .openBrace "\x7b", gap " ", mark .openBracket "[", word "key",
   mark .colon ":", gap " ", key .stringWord "string", mark .closeBracket "]", mark .colon ":",
   gap " ", key .unknownWord "unknown", gap " ", mark .closeBrace "\x7d", gap " ", mark .arrow "=>",
   gap " ", mark .openBrace "\x7b"]

/-- The constants behind that brace. -/
def constantsBack : List Stretch :=
  [gap "\n", mark .closeBrace "\x7d", mark .semicolon ";", gap "\n"]

/-- The shapes of the tokens of the constants. -/
def constantsShape : List (TokenKind × Bool) :=
  [(.word (some .importWord), false), (.mark .openBrace, false), (.word none, false),
   (.mark .closeBrace, false), (.word (some .fromWord), false), (.string, false),
   (.mark .semicolon, false),
   (.word (some .importWord), true), (.mark .openBrace, false), (.word none, false),
   (.mark .closeBrace, false), (.word (some .fromWord), false), (.string, false),
   (.mark .semicolon, false),
   (.word (some .exportWord), true), (.word (some .constWord), false), (.word none, false),
   (.mark .assign, false),
   (.mark .openParen, false), (.word none, false), (.mark .colon, false), (.word none, false),
   (.mark .closeParen, false), (.mark .colon, false), (.mark .openBrace, false),
   (.mark .openBracket, false), (.word none, false), (.mark .colon, false),
   (.word (some .stringWord), false), (.mark .closeBracket, false), (.mark .colon, false),
   (.word (some .unknownWord), false), (.mark .closeBrace, false), (.mark .arrow, false),
   (.mark .openBrace, false), (.mark .closeBrace, true), (.mark .semicolon, false)]

/-- The tokens of the constants are those of statements, whatever statements there are in the body of
the mapping function; the first function with an arrow is the value of the exported constant. -/
theorem statements_constants (n : Nat) {t : Nat → Token}
    (shapes : ∀ i, (t i).shape = (constantsShape[i]?).getD (.stray, false))
    {tokens : List Token} {rows : List Node}
    (reads : Phrase.Reads (read (n + 18) .statement) tokens rows ((List.range' 35 2).map t))
    (no_label : Rules.labelledBrace (t 34 :: tokens) = false) :
    ∃ nodes, Statements (n + 20) ((List.range' 0 35).map t ++ tokens) nodes ∧
      Finds isArrow (fun p => bodyStart? p.node = some (t 34).stop) (.branch .program nodes) := by
  have kind (i : Nat) : (t i).kind = ((constantsShape[i]?).getD (.stray, false)).1 :=
    congrArg Prod.fst (shapes i)
  let from' (i : Nat) : List Token := (List.range' i (35 - i)).map t ++ tokens
  have less (i j : Nat) (lt : i < j ∧ i < 35) : (from' j).length < (from' i).length := by
    simp [from']
    omega
  obtain ⟨names, clause, passed⟩ := namedImports_one (kind 1) (kind 2) (kind 3) (from' 4)
  obtain ⟨first, read_first, first_over⟩ :=
    read_import (n + 19) (kind 0) (kind 1) clause passed (kind 4) (kind 5) (kind 6)
  obtain ⟨names', clause', passed'⟩ := namedImports_one (kind 8) (kind 9) (kind 10) (from' 11)
  obtain ⟨second, read_second, second_over⟩ :=
    read_import (n + 19) (kind 7) (kind 8) clause' passed' (kind 11) (kind 12) (kind 13)
  obtain ⟨params, parameters, no_role⟩ :=
    parameters_one (n + 16) (from' 23) (kind 18) (kind 19) (kind 20) (kind 21) (kind 22)
  obtain ⟨type, read_type, -⟩ :=
    read_type_index (n + 14) (from' 34) (kind 24) (kind 25) (kind 26) (kind 27) (kind 28) (kind 29)
      (kind 30) (kind 31) (kind 32) (.of_mark (kind 33))
  have brace : (t 24).kind = .mark .openBrace := kind 24
  have no_asserts : (read (n + 18)).asserts (t 24 :: from' 25) = none := by
    simp [Rules.asserts, brace]
  have no_predicate : (read (n + 18)).typePredicate (t 24 :: from' 25) = none := by
    simp [Rules.typePredicate, Token.isIdentifier, brace]
  -- the parameters are skipped as one group, to look at what is behind them
  have group : Phrase.skipGroup (t 19 :: t 20 :: t 21 :: t 22 :: from' 23).length 0
      (t 19 :: t 20 :: t 21 :: t 22 :: from' 23) = some (from' 23) := by
    simp [Phrase.skipGroup, kind, constantsShape]
  have result := returnType_of_type (kind 23) no_asserts no_predicate read_type
  obtain ⟨arrow, read_arrow, arrow_kind, body⟩ :=
    read_arrow (kind 18) group (kind 23) parameters no_role result rfl (kind 33) (kind 34) no_label
      reads (kind 35)
  have third := read_exported (kind 14) (kind 15) (kind 16) (kind 17) read_arrow (kind 36)
  refine ⟨[first, second, _],
    .cons read_first (less 0 7 (by decide))
      (.cons read_second (less 7 14 (by decide)) (.cons third (by simp) .nil)), ?_⟩
  have step (kind : Kind) (passed : passesOver kind = true) (front back : List Node)
      (all : Node.allKindsIn passesOver front = true) {child : Node}
      (finds : Finds isArrow (fun p => bodyStart? p.node = some (t 34).stop) child) :=
    finds.branch searches_isArrow passed front back all
  have in_declarator := step .variableDeclarator rfl
    [.leaf .identifier (t 16).start (t 16).stop, .leaf .punctuation (t 17).start (t 17).stop] []
    (by simp [passesOver]) ((finds_arrow arrow_kind body).withField .value)
  have in_declaration := step .lexicalDeclaration rfl [.leaf .keyword (t 15).start (t 15).stop]
    [.leaf .semicolon (t 36).start (t 36).stop] (by simp [passesOver]) in_declarator
  have in_export := step .exportStatement rfl [.leaf .keyword (t 14).start (t 14).stop] []
    (by simp [passesOver]) in_declaration
  exact step .program rfl [first, second] [] (by simp [first_over, second_over]) in_export

set_option maxRecDepth 4000 in
theorem text_constants (p : Values) :
    text (constantsFront p ++ constantsBack) = (Piece.filled p Skeleton.constants).toList := by
  simp only [constantsFront, constantsBack, key, Stretch.mark, Stretch.word, Stretch.quoted, gap,
    List.cons_append, List.nil_append, text_cons, text_nil, chars, ← String.toList_append,
    List.append_nil, String.append_assoc, Piece.filled, Skeleton.constants, List.map_cons,
    List.map_nil, Piece.fill, Values.value, String.join_cons, String.join_nil, String.append_empty]
  exact congrArg String.toList rfl

/-- The tokens of the constants with statements in the body of the mapping function. -/
theorem tokensFrom_constantsFront (p : Values) (rest : List Stretch) :
    tokensFrom 0 false (constantsFront p ++ rest) =
      tokensFrom 0 false (constantsFront p) ++
        tokensFrom (Text.size (text (constantsFront p))) false rest := by
  have cut := tokensFrom_append_lexeme 0 false (constantsFront p).dropLast (.mark .openBrace)
    "\x7b".toList rest
  rwa [Nat.zero_add] at cut

theorem shape_constants (p : Values) (position : Nat) (afterBreak : Bool) :
    (tokensFrom 0 false (constantsFront p) ++
      tokensFrom position afterBreak constantsBack).map Token.shape = constantsShape := by
  cases afterBreak <;> rfl

set_option maxRecDepth 4000 in
theorem scans_constantsFront {p : Values} (fit : p.Fit) {rest : List Stretch} (later : Scans rest) :
    Scans (constantsFront p ++ rest) := by
  obtain ⟨is, mixed⟩ : Lexeme.IsWord p.modelName.toList ∧
      ∃ c ∈ p.modelName.toList, c.isLower = false := by
    simpa using Lexeme.isWord_around [] [] fit.modelName (by simp) (by simp)
  obtain ⟨is', mixed'⟩ : Lexeme.IsWord ("mapTo" ++ p.modelName ++ "Row").toList ∧
      ∃ c ∈ ("mapTo" ++ p.modelName ++ "Row").toList, c.isLower = false := by
    rw [String.toList_append, String.toList_append]
    exact Lexeme.isWord_around "mapTo".toList "Row".toList fit.modelName
      (List.all_eq_true.mp (by decide)) (List.all_eq_true.mp (by decide))
  have path : Lexeme.IsQuoted '\'' ("./" ++ p.modelFileName).toList := by
    rw [String.toList_append]
    have dots : Lexeme.IsQuoted '\'' "./".toList := by decide
    intro c mem
    rcases List.mem_append.mp mem with mem | mem
    · exact dots c mem
    · exact Lexeme.isQuoted_of_isDashed fit.modelFileName c mem
  simp only [constantsFront, List.cons_append, List.nil_append]
  repeat first
    | refine scans_gap (List.all_eq_true.mp (by decide)) ?_
    | refine scans_shortMark (by decide) ?_
    | refine scans_key (by simp [Keyword.spellings]) (by decide) (by decide) ?_
    | refine scans_name is mixed (by decide) ?_
    | refine scans_name is' mixed' (by decide) ?_
    | refine scans_name (by decide) (exists_isLower_eq_false (by decide)) (by decide) ?_
    | refine scans_word (by decide) (by decide +kernel) (by decide) ?_
    | refine scans_quoted path ?_
    | refine scans_quoted (by decide) ?_
    | refine scans_mark rfl (by decide) rfl ?_
  exact later

theorem scans_constantsBack : Scans constantsBack := by
  unfold constantsBack
  repeat first
    | refine scans_gap (List.all_eq_true.mp (by decide)) ?_
    | refine scans_shortMark (by decide) ?_
  trivial

/-- From the position on, in front of the back, there are statements, and the first token is no
name. -/
def StatementsIn (position : Nat) (rows : List Stretch) : Prop :=
  (∀ n, ∃ nodes behind afterBreak,
    Phrase.Reads (read (n + 18) .statement) (tokensFrom position false (rows ++ constantsBack)) nodes
      (tokensFrom behind afterBreak constantsBack)) ∧
  ∀ token later, tokensFrom position false (rows ++ constantsBack) = token :: later →
    token.isIdentifier = false

theorem statementsIn_nil (position : Nat) : StatementsIn position [] := by
  refine ⟨fun _ => ⟨[], position, false, .nil _⟩, fun token later eq => ?_⟩
  cases eq
  rfl

/-- **The anchor of the constants** is behind the brace that opens the body of the mapping function,
whatever statements were put there. -/
theorem offset?_constants {p : Values} (fit : p.Fit) (rows : List Stretch)
    (scans : Scans (rows ++ constantsBack))
    (statements : StatementsIn (Text.size (text (constantsFront p))) rows) {file : String}
    (is_file : file.toList = text (constantsFront p ++ (rows ++ constantsBack))) :
    arrowBodyStart.offset? (Document.parse file) = some (Text.size (text (constantsFront p))) := by
  let front := tokensFrom 0 false (constantsFront p)
  let body := tokensFrom (Text.size (text (constantsFront p))) false (rows ++ constantsBack)
  have scan : Token.scan file.toList = (front ++ body, []) := by
    rw [is_file, scan_of_scans (scans_constantsFront fit scans) rfl, tokensFrom_constantsFront]
  have long : front.length = 35 := rfl
  obtain ⟨n, fuel⟩ : ∃ n, goalsPerToken * ((front ++ body).length + 1) = n + 20 :=
    ⟨_, (Nat.sub_add_cancel (by rw [List.length_append, long, goalsPerToken]; omega)).symm⟩
  obtain ⟨rows, behind, afterBreak, reads⟩ := statements.1 n
  let back := tokensFrom behind afterBreak constantsBack
  let t := Token.nth (front ++ back)
  have shapes (i : Nat) : (t i).shape = (constantsShape[i]?).getD (.stray, false) := by
    rw [Token.shape_nth, shape_constants]
  have front_eq : front = (List.range' 0 35).map t := Token.eq_map_nth_left front back
  have back_eq : back = (List.range' 35 2).map t := Token.eq_map_nth_right front back
  rw [show tokensFrom behind afterBreak constantsBack = (List.range' 35 2).map t from back_eq] at reads
  have last : (t 34).stop = Text.size (text (constantsFront p)) := by
    rw [show t 34 = Token.nth front 34 from Token.nth_append_left (by omega) back]
    have ends := stop_nth 0 false (constantsFront p).dropLast (.mark .openBrace) "\x7b".toList []
      (i := 34) rfl
    rwa [Nat.zero_add] at ends
  have no_label : Rules.labelledBrace (t 34 :: body) = false :=
    labelledBrace_of_head statements.2
  obtain ⟨nodes, statements, finds⟩ := statements_constants n shapes reads no_label
  rw [last] at finds
  rw [← front_eq, ← fuel] at statements
  have program : program (front ++ body) = .branch .program nodes :=
    program_of_statements statements nofun
  refine offset?_arrowBodyStart scan ?_
  rw [program]
  exact finds

end Layout

end ModelGrid.Component
