import ModelGrid.Syntax.Grammar.Statement

/-!
# The grammar

The rules of the constructs that may contain themselves, tied together.

## Main definitions

* `Grammar.read`: how to read each goal.
* `Grammar.program`: the tree of the tokens of a file.
-/

namespace ModelGrid.Syntax.Grammar

open Phrase

/-- The rule of each goal, given how to read the goals inside it. -/
def rule (r : Rules) : Rules
  | .expression inOperator => r.expressionRule inOperator
  | .assignment inOperator typedArrow => r.assignmentRule inOperator typedArrow
  | .binary level inOperator => r.binaryRule level inOperator
  | .unary => r.unaryRule
  | .operand => r.operandRule
  | .construction => r.constructionRule
  | .type => r.typeRule
  | .unionType => r.unionRule
  | .pattern => r.patternRule
  | .statement => r.statementRule

/-- How to read the goals, with at most `fuel` of them inside one another. -/
def read : Nat → Rules
  | 0, _ => fail
  | fuel + 1, goal => rule (read fuel) goal

/-- No more than this many goals begin at the same token, one inside the other. -/
def goalsPerToken : Nat := 8

/-- The tree of the tokens of a file.  Decorators without a class are kept, and a token that no
statement begins with is kept as no construct. -/
def program (tokens : List Token) : Node :=
  let r := read (goalsPerToken * (tokens.length + 1))
  let phrases :=
    [opt [token .interpreterLine .interpreterLine],
     many (first [r .statement, r.decorator, stray])]
  match seq phrases tokens with
  | some (nodes, _) => Node.branch .program nodes
  | none => Node.branch .program []

end ModelGrid.Syntax.Grammar
