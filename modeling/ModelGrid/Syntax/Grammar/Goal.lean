import ModelGrid.Syntax.Grammar.Phrase

/-!
# Goals of the grammar

The constructs that may contain themselves.  A rule of the grammar reads them through a function
that is handed to it, so that every rule is a plain definition; `Grammar.read` ties them together.

## Main definitions

* `Goal`: a construct that may contain itself.
* `Rules`: how to read each of them.
-/

namespace ModelGrid.Syntax

/-- A construct that may contain itself. -/
inductive Goal
  /-- Expressions separated by commas; `inOperator` tells whether `in` is an operator there. -/
  | expression (inOperator : Bool)
  /-- One expression; `typedArrow` tells whether a colon after a parenthesis may begin the return
  type of an arrow function. -/
  | assignment (inOperator typedArrow : Bool)
  /-- An expression of binary operators that bind at least as tightly as the level. -/
  | binary (level : Nat) (inOperator : Bool)
  | unary
  /-- An operand with the calls, members and subscripts after it. -/
  | operand
  /-- The object that a `new` makes. -/
  | construction
  | type
  /-- A type that is no conditional type, unless in parentheses. -/
  | unionType
  | pattern
  | statement
  deriving DecidableEq, Repr

/-- How to read each goal. -/
abbrev Rules := Goal → Phrase

namespace Rules

open Phrase

/-- An expression without commas. -/
def value (r : Rules) : Phrase := r (.assignment true true)

/-- An expression in parentheses. -/
def parenthesized (r : Rules) : Phrase :=
  build .parenthesizedExpression [mark .openParen, r (.expression true), mark .closeParen]

/-- An entry of an argument list or array. -/
def listEntry (r : Rules) : Phrase :=
  first [build .spreadElement [mark .ellipsis, r.value], r.value]

/-- What is passed to a function. -/
def arguments (r : Rules) : Phrase :=
  build .arguments [mark .openParen, commaList r.listEntry, mark .closeParen]

/-- Statements in braces. -/
def block (r : Rules) : Phrase :=
  braced .statementBlock (r .statement)

/-- A template with its substitutions, which hold what the phrase reads. -/
def template (whole substitution : Kind) (inner : Phrase) : Phrase :=
  build whole
    [token .punctuation .templateOpen,
     many
       (first
         [token .templateChars .templateChars,
          build substitution
            [token .punctuation .substitutionOpen, inner, mark .closeBrace]]),
     token .punctuation .templateClose]

/-- The name of a property or member. -/
def propertyName (r : Rules) : Phrase :=
  first
    [anyWord .propertyIdentifier,
     token .privatePropertyIdentifier .privateName,
     token .stringLiteral .string,
     token .numberLiteral .number,
     build .computedPropertyName
       [mark .openBracket, r (.expression true), mark .closeBracket]]

end Rules

end ModelGrid.Syntax
