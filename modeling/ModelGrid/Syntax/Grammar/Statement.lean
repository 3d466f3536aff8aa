import ModelGrid.Syntax.Grammar.Declaration

/-!
# Statements

## Main definitions

* `Rules.statementRule`: a statement.
-/

namespace ModelGrid.Syntax.Rules

open Phrase

/-- An expression as a statement. -/
def expressionStatement (r : Rules) : Phrase :=
  build .expressionStatement [r (.expression true), semicolon]

/-- A choice between two statements. -/
def ifStatement (r : Rules) : Phrase :=
  build .ifStatement
    [key .ifWord, r.parenthesized, r .statement,
     opt [build .elseClause [key .elseWord, r .statement]]]

/-- A loop over the members of a value. -/
def forInStatement (r : Rules) : Phrase :=
  let declared :=
    seq
      [first [key .varWord, key .letWord, key .constWord, key .usingWord], r .pattern,
       opt [mark .assign, r (.assignment false true)]]
  let target := (r .operand).map fun nodes => nodes.map Node.asPattern
  build .forInStatement
    [key .forWord, opt [key .awaitWord], mark .openParen,
     first
       [seq [declared, ahead (first [key .ofWord, key .inWord])],
        seq [target, ahead (first [key .ofWord, key .inWord])]],
     first [key .ofWord, key .inWord], r (.expression true), mark .closeParen,
     role .body (r .statement)]

/-- A loop with a start, a condition and a step. -/
def forStatement (r : Rules) : Phrase :=
  let declared (kind : Kind) (keyword : Phrase) : Phrase :=
    build kind
      [keyword,
       separated .comma
         (build .variableDeclarator
           [r .pattern, opt [r.typeAscription],
            opt [mark .assign, r (.assignment false true)]]),
       mark .semicolon]
  build .forStatement
    [key .forWord, mark .openParen,
     first
       [declared .variableDeclaration (key .varWord),
        declared .lexicalDeclaration (first [key .letWord, key .constWord]),
        seq [r (.expression false), mark .semicolon],
        build .emptyStatement [mark .semicolon]],
     first
       [seq [r (.expression true), mark .semicolon],
        build .emptyStatement [mark .semicolon]],
     opt [r (.expression true)], mark .closeParen, role .body (r .statement)]

/-- A loop with its condition in front. -/
def whileStatement (r : Rules) : Phrase :=
  build .whileStatement [key .whileWord, r.parenthesized, role .body (r .statement)]

/-- A loop with its condition at the end. -/
def doStatement (r : Rules) : Phrase :=
  build .doStatement
    [key .doWord, role .body (r .statement), key .whileWord, r.parenthesized,
     opt [mark .semicolon]]

/-- A choice by value. -/
def switchStatement (r : Rules) : Phrase :=
  let statements :=
    many
      (seq [notAhead (first [key .caseWord, seq [key .defaultWord, mark .colon]]), r .statement])
  build .switchStatement
    [key .switchWord, r.parenthesized,
     build .switchBody
       [mark .openBrace,
        many
          (first
            [build .switchCase [key .caseWord, r (.expression true), mark .colon, statements],
             build .switchDefault [key .defaultWord, mark .colon, statements]]),
        mark .closeBrace]]

/-- Statements whose errors are caught. -/
def tryStatement (r : Rules) : Phrase :=
  let caught :=
    build .catchClause
      [key .catchWord,
       opt [mark .openParen, r .pattern, opt [r.typeAscription], mark .closeParen],
       role .body r.block]
  let finally' := build .finallyClause [key .finallyWord, role .body r.block]
  build .tryStatement
    [key .tryWord, role .body r.block,
     first [seq [caught, opt [finally']], finally']]

/-- A statement that may be named in a jump. -/
def labeledStatement (r : Rules) : Phrase :=
  build .labeledStatement [name .statementIdentifier, mark .colon, role .body (r .statement)]

/-- A jump to the end or to the next turn of a statement. -/
def jump (kind : Kind) (keyword : Keyword) : Phrase :=
  build kind [key keyword, opt [sameLine, name .statementIdentifier], semicolon]

/-- A namespace stands for a value where the end of a statement follows it. -/
def namespaceStatement (r : Rules) : Phrase :=
  first [build .expressionStatement [r.internalModule, semicolon], r.internalModule]

/-- A statement behind decorators, if there are any. -/
def decoratedStatement (r : Rules) : Phrase :=
  seq
    [ahead (mark .decorator),
     andThen (many r.decorator) fun decorators =>
       first [r.exportStatement decorators, r.declaration decorators]]

/-- A statement. -/
def statementRule (r : Rules) : Phrase :=
  first
    [seq [test labelledBrace, r.expressionStatement],
     r.block,
     build .emptyStatement [mark .semicolon],
     r.ifStatement, r.forInStatement, r.forStatement, r.whileStatement, r.doStatement,
     r.switchStatement, r.tryStatement,
     build .withStatement [key .withWord, r.parenthesized, role .body (r .statement)],
     jump .breakStatement .breakWord, jump .continueStatement .continueWord,
     build .returnStatement
       [key .returnWord, opt [sameLine, r (.expression true)], semicolon],
     build .throwStatement [key .throwWord, r (.expression true), semicolon],
     build .debuggerStatement [key .debuggerWord, semicolon],
     r.decoratedStatement,
     r.importStatement, r.exportStatement [], r.ambientDeclaration,
     r.namespaceStatement, r.declaration [],
     r.labeledStatement,
     r.expressionStatement]

end ModelGrid.Syntax.Rules
