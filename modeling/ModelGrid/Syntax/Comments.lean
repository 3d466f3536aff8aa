import ModelGrid.Syntax.Node
import ModelGrid.Syntax.Token.Lexeme

/-!
# Comments in a tree

The grammar reads tokens only; the comments are put into the tree afterwards.  A comment goes into
the innermost node that has a child on either side of it.  A statement that ends without a semicolon
also takes the comments that follow it on its line, and so does a block of statements where a
statement may end behind them.

## Main definitions

* `Lexeme.mayEnd`: whether a statement may end in front of a text without a semicolon.
* `Node.takesTrailing`: whether a node takes the comments that follow it on its line.
* `Node.addComments`: a tree with comments put into it.
-/

namespace ModelGrid.Syntax

namespace Lexeme

/-- The text without the white space and comments at its front. -/
def skipTrivia : Nat → List Char → List Char
  | 0, cs => cs
  | _ + 1, [] => []
  | fuel + 1, c :: cs =>
    if isSpace c then skipTrivia fuel cs
    else
      match comment (c :: cs) with
      | some (_, rest) => skipTrivia fuel rest
      | none => c :: cs

/-- Whether a text that begins with `in` or `instanceof` goes on with another word. -/
def beginsOtherWord (cs : List Char) : Bool :=
  match literally ['i', 'n'] cs with
  | none => true
  | some (_, rest) =>
    let (letters, _) := rest.span Char.isAlpha
    !letters.isEmpty && letters != "stanceof".toList

/-- Whether a text on a new line begins a statement, and does not go on with the one before. -/
def beginsStatement : List Char → Bool
  | [] => true
  | '+' :: cs => cs.head? == some '+'
  | '-' :: cs => cs.head? == some '-'
  | '!' :: cs => cs.head? != some '='
  | c :: cs => !("\x60,.;*%><=?^|&/:([".toList.contains c) && beginsOtherWord (c :: cs)

/-- Whether a statement may end in front of a text without a semicolon. -/
def mayEnd (cs : List Char) : Bool :=
  match cs.dropWhile fun c => isSpace c && c != '\n' with
  | [] => true
  | '\x7d' :: _ => true
  | '\n' :: rest => beginsStatement (skipTrivia rest.length rest)
  | _ => false

end Lexeme

/-- Whether nodes of the kind end in a semicolon that may be left out. -/
def Kind.endsInSemicolon : Kind → Bool
  | .expressionStatement | .returnStatement | .throwStatement | .breakStatement
  | .continueStatement | .debuggerStatement | .lexicalDeclaration | .variableDeclaration
  | .functionSignature | .typeAliasDeclaration | .importStatement | .importAlias => true
  | _ => false

/-- A comment as a node. -/
def Comment.toNode (comment : Comment) : Node :=
  .node { kind := .comment, extra := true, start := comment.start, stop := comment.stop } []

mutual

/-- Whether a node takes the comments that follow it on its line, given whether a statement may end
behind them: it ends without its semicolon, it is a block, or its last child takes them. -/
def Node.takesTrailing (mayEnd : Bool) : Node → Bool
  | .node label children =>
    let last := children.getLast?.map Node.kind
    (label.kind.endsInSemicolon && last != some .semicolon) ||
      (label.kind == .statementBlock && mayEnd) || Node.lastTakesTrailing mayEnd children

/-- Whether the last node of a row takes the comments that follow it on its line. -/
def Node.lastTakesTrailing (mayEnd : Bool) : List Node → Bool
  | [] => false
  | [last] => last.takesTrailing mayEnd
  | _ :: rest => Node.lastTakesTrailing mayEnd rest

end

/-- The comments behind a node on its line, up to the next node of the row. -/
def Comment.trailing (comments : List Comment) (next : Option Node) : List Comment :=
  comments.takeWhile fun comment =>
    !comment.afterBreak && (next.map fun node => decide (comment.start < node.start)).getD true

/-- How many of the comments behind a node it takes. -/
def Node.trailingCount (text : List Char) (comments : List Comment) (next : Option Node)
    (n : Node) : Nat :=
  let trailing := Comment.trailing comments next
  match trailing.getLast? with
  | none => 0
  | some last =>
    let behind := ((Text.splitAt? last.stop text).map Prod.snd).getD []
    if n.takesTrailing (Lexeme.mayEnd behind) then trailing.length else 0

mutual

/-- Put comments into a tree.  The tree extends to the last of them. -/
def Node.addComments (text : List Char) (comments : List Comment) : Node → Node
  | .node label children =>
    .node { label with stop := max label.stop ((comments.getLast?.map Comment.stop).getD 0) }
      (Node.addCommentsIn text comments children)

/-- Put comments between or into the trees of a row. -/
def Node.addCommentsIn (text : List Char) (comments : List Comment) : List Node → List Node
  | [] => comments.map Comment.toNode
  | child :: rest =>
    let (before, later) := comments.span fun comment => comment.start < child.start
    let (inside, after) := later.span fun comment => comment.start < child.stop
    let taken := child.trailingCount text after rest.head?
    before.map Comment.toNode ++
      child.addComments text (inside ++ after.take taken) ::
        Node.addCommentsIn text (after.drop taken) rest

end

end ModelGrid.Syntax
