import ModelGrid.Syntax.Grammar.Class

/-!
# Expressions

## Main definitions

* `Rules.expressionRule`, `Rules.assignmentRule`, `Rules.binaryRule`, `Rules.unaryRule`: the goals
  of expressions, from the loosest to the tightest.
* `Rules.operandRule`, `Rules.constructionRule`: what the operators stand between.
* `Rules.object`: an object literal.
-/

namespace ModelGrid.Syntax

/-- A binary operator with how tightly it binds; one that groups to the right says so. -/
structure BinaryOperator where
  level : Nat
  toTheRight : Bool := false

namespace Rules

open Phrase

/-! ### Literals -/

/-- An array literal. -/
def array (r : Rules) : Phrase :=
  build .array [mark .openBracket, commaList r.listEntry, mark .closeBracket]

/-- A word in front of a method of an object literal. -/
def methodModifier : Phrase :=
  seq
    [first [key .asyncWord, key .getWord, key .setWord, key .staticWord],
     ahead
       (first
         [anyWord .identifier, token .stringLiteral .string, token .numberLiteral .number,
          mark .openBracket, token .privatePropertyIdentifier .privateName, mark .times])]

/-- An entry of an object literal. -/
def objectEntry (r : Rules) : Phrase :=
  first
    [build .spreadElement [mark .ellipsis, r.value],
     build .methodDefinition
       [many methodModifier, opt [mark .times], r.propertyName, opt [mark .question],
        r.signature, role .body r.block],
     build .pair [role .key r.propertyName, mark .colon, role .value r.value],
     build .objectAssignmentPattern
       [name .shorthandPropertyIdentifierPattern, mark .assign, r.value],
     name .shorthandPropertyIdentifier]

/-- An object literal. -/
def object (r : Rules) : Phrase :=
  build .object [mark .openBrace, commaList r.objectEntry, mark .closeBrace]

/-- A function as a value. -/
def functionExpression (r : Rules) : Phrase :=
  andThen (seq [opt [key .asyncWord, sameLine], key .functionWord]) fun left =>
    let rest := [opt [name .identifier], r.signature, role .body r.block]
    first
      [extend .generatorFunction left (mark .times :: rest),
       extend .functionExpression left rest]

/-! ### Operands -/

/-- The properties of the running module and of the current call. -/
def metaProperty : Phrase :=
  first
    [build .metaProperty [key .importWord, mark .dot, key .metaWord],
     build .metaProperty [key .newWord, mark .dot, key .targetWord]]

/-- An operand without anything after it. -/
def primary (r : Rules) : Phrase :=
  first
    [keyAs .thisExpression .thisWord, keyAs .superExpression .superWord,
     keyAs .nullLiteral .nullWord, keyAs .trueLiteral .trueWord, keyAs .falseLiteral .falseWord,
     keyAs .undefinedLiteral .undefinedWord,
     token .numberLiteral .number, token .stringLiteral .string, token .regexLiteral .regex,
     template .templateString .templateSubstitution (r (.expression true)),
     metaProperty,
     keyAs .importCallee .importWord,
     r.parenthesized, r.array, r.object,
     r.functionExpression,
     r.classExpression,
     token .privatePropertyIdentifier .privateName,
     name .identifier]

/-- The name of a member after a dot. -/
def memberName : Phrase :=
  first [anyWord .propertyIdentifier, token .privatePropertyIdentifier .privateName]

/-- A member or a subscript of what stands to the left. -/
def memberSuffix (r : Rules) (left : List Node) : Phrase :=
  first
    [extend .memberExpression left [mark .dot, memberName],
     extend .subscriptExpression left
       [mark .openBracket, r (.expression true), mark .closeBracket]]

/-- The marks that go on with a comparison on whatever line they are. -/
def comparisonMarks : List Punctuator :=
  [.less, .greater, .plus, .minus]

/-- The marks that begin an operand of a comparison on the same line. -/
def operandMarks : List Punctuator :=
  [.openBrace, .openBracket, .bang, .bitNot, .increment, .decrement, .decorator]

/-- Whether type arguments in front of the tokens stand on their own, and are no comparison. -/
def endsInstantiation : List Token → Bool
  | [] => true
  | token :: _ =>
    match token.kind with
    | .mark mark =>
      !comparisonMarks.contains mark && (token.afterBreak || !operandMarks.contains mark)
    | .word (some keyword) =>
      token.afterBreak || [.inWord, .instanceofWord, .asWord, .satisfiesWord].contains keyword
    | _ => token.afterBreak

/-- Whatever may follow an operand: a member, a subscript, a call, a template, or a mark that it is
there. -/
def operandSuffix (r : Rules) (left : List Node) : Phrase :=
  let template := Rules.template .templateString .templateSubstitution (r (.expression true))
  let chained := build .optionalChain [mark .optionalChain]
  let callee := left.map (Node.withField .function)
  first
    [r.memberSuffix left,
     extend .callExpression callee [role .arguments (first [r.arguments, template])],
     extend .memberExpression left [chained, memberName],
     extend .subscriptExpression left
       [chained, mark .openBracket, r (.expression true), mark .closeBracket],
     extend .callExpression callee
       [chained, opt [r.typeArguments], role .arguments r.arguments],
     extend .nonNullExpression left [sameLine, mark .bang],
     andThen (seq [emit callee, r.typeArguments]) fun generic =>
       first
         [extend .callExpression generic [role .arguments (first [r.arguments, template])],
          extend .instantiationExpression generic [test endsInstantiation]]]

/-- The object that a `new` makes. -/
def constructionRule (r : Rules) : Phrase :=
  build .newExpression
    [key .newWord,
     chain (first [r .construction, r.primary]) fun left =>
       first [r.memberSuffix left, extend .nonNullExpression left [sameLine, mark .bang]],
     opt [r.typeArguments],
     opt [role .arguments r.arguments]]

/-- An operand with the calls, members and subscripts after it. -/
def operandRule (r : Rules) : Phrase :=
  chain (first [metaProperty, r .construction, r.primary]) r.operandSuffix

/-! ### Operators -/

/-- An operand with the operators in front of it and after it. -/
def unaryRule (r : Rules) : Phrase :=
  first
    [build .unaryExpression
       [first
          [mark .bang, mark .minus, mark .plus, mark .bitNot, key .typeofWord, key .voidWord,
           key .deleteWord],
        r .unary],
     build .updateExpression [first [mark .increment, mark .decrement], r .unary],
     build .awaitExpression [key .awaitWord, r .unary],
     build .typeAssertion [r.typeArguments, r .unary],
     chain (r .operand) fun left =>
       extend .updateExpression left [sameLine, first [mark .increment, mark .decrement]]]

/-- How tightly a mark binds as a binary operator. -/
def markOperator? : Punctuator → Option BinaryOperator
  | .nullish => some { level := 1 }
  | .logicalOr => some { level := 2 }
  | .logicalAnd => some { level := 3 }
  | .bitOr => some { level := 4 }
  | .bitXor => some { level := 5 }
  | .bitAnd => some { level := 6 }
  | .equal | .notEqual | .strictEqual | .strictNotEqual => some { level := 7 }
  | .less | .lessEqual => some { level := 8 }
  | .shiftLeft => some { level := 9 }
  | .plus | .minus => some { level := 10 }
  | .times | .divide | .remainder => some { level := 11 }
  | .power => some { level := 12, toTheRight := true }
  | _ => none

/-- The tokens that make one sign with a `>` that has just been read: further ones without a gap,
and an `=` at the end. -/
def greaterRun : Nat → Token → List Token → Nat × Bool × Token × List Token
  | 0, last, rest => (0, false, last, rest)
  | _ + 1, last, [] => (0, false, last, [])
  | fuel + 1, last, token :: rest =>
    if token.start == last.stop && token.mark? == some .greater then
      let (more, assigns, final, after) := greaterRun fuel token rest
      (more + 1, assigns, final, after)
    else if token.start == last.stop && token.mark? == some .assign then
      (0, true, token, rest)
    else (0, false, last, token :: rest)

/-- The sign that begins with a `>`: its operator, or none if it assigns, and its range. -/
def greaterSign? : List Token → Option (Option BinaryOperator × Node × List Token)
  | [] => none
  | token :: rest =>
    if token.mark? == some .greater then
      let (more, assigns, final, after) := greaterRun 3 token rest
      let operator : Option BinaryOperator :=
        match more, assigns with
        | 0, _ => some { level := 8 }
        | _, false => some { level := 9 }
        | _, true => none
      some (operator, Node.leaf .punctuation token.start final.stop, after)
    else none

/-- The binary operator ahead, with its sign and the tokens after it. -/
def binaryOperator? (inOperator : Bool) :
    List Token → Option (BinaryOperator × List Node × List Token)
  | [] => none
  | token :: rest =>
    let sign (kind : Kind) := [Node.leaf kind token.start token.stop]
    match token.kind with
    | .mark .greater =>
      match greaterSign? (token :: rest) with
      | some (some operator, node, after) => some (operator, [node], after)
      | _ => none
    | .mark mark => (markOperator? mark).map fun operator => (operator, sign .punctuation, rest)
    | .word (some .instanceofWord) => some ({ level := 8 }, sign .keyword, rest)
    | .word (some .inWord) =>
      if inOperator then some ({ level := 8 }, sign .keyword, rest) else none
    | _ => none

/-- A binary operator that binds at least as tightly as the level, with its right operand; or a
statement on the type of what stands to the left. -/
def binarySuffix (r : Rules) (level : Nat) (inOperator : Bool) (left : List Node) : Phrase :=
  let typed (kind : Kind) (keyword : Keyword) : Phrase :=
    extend kind left
      [sameLine, key keyword, first [seq [key .constWord, notAhead (mark .dot)], r .type]]
  let binary : Phrase := fun tokens =>
    match binaryOperator? inOperator tokens with
    | none => none
    | some (operator, sign, rest) =>
      if operator.level < level then none
      else
        let tighter := if operator.toTheRight then operator.level else operator.level + 1
        extend .binaryExpression left [emit sign, r (.binary tighter inOperator)] rest
  if level ≤ 8 then
    first [typed .asExpression .asWord, typed .satisfiesExpression .satisfiesWord, binary]
  else binary

/-- An expression of binary operators that bind at least as tightly as the level. -/
def binaryRule (r : Rules) (level : Nat) (inOperator : Bool) : Phrase :=
  chain (r .unary) (r.binarySuffix level inOperator)

/-- A choice between two values, or an expression of binary operators. -/
def conditional (r : Rules) (inOperator typedArrow : Bool) : Phrase :=
  andThen (r (.binary 0 inOperator)) fun left =>
    first
      [extend .ternaryExpression left
         [mark .question,
          first
            [seq [r (.assignment true true), ahead (mark .colon)],
             r (.assignment true false)],
          mark .colon, r (.assignment inOperator typedArrow)],
       emit left]

/-! ### Functions with an arrow, and assignments -/

/-- Whether the tokens are a brace with an entry that looks like a labelled value. -/
def labelledBrace : List Token → Bool
  | brace :: label :: colon :: _ =>
    brace.mark? == some .openBrace && label.isIdentifier && colon.mark? == some .colon
  | _ => false

/-- A function with an arrow.  With `typedArrow`, its parameters may be followed by the type of its
result.  Where the text ends inside its body there is none yet. -/
def arrowFunction (r : Rules) (inOperator typedArrow : Bool) : Phrase :=
  let value := r (.assignment inOperator typedArrow)
  let body := role .body (first [seq [test labelledBrace, value], r.block, value])
  let one := [name .identifier, mark .arrow, body]
  let group :=
    if typedArrow then groupThen (first [mark .arrow, mark .colon]) else groupThen (mark .arrow)
  let result := if typedArrow then opt [r.returnType] else emit []
  let list := [opt [r.typeParameters], group, r.parameters, result, mark .arrow, body]
  (first
    [build .arrowFunction (key .asyncWord :: sameLine :: one),
     build .arrowFunction one,
     build .arrowFunction (key .asyncWord :: sameLine :: list),
     build .arrowFunction list]).map fun nodes =>
      nodes.map fun arrow => if arrow.isClosed then arrow else arrow.withKind .error

/-- What a generator hands out. -/
def yieldExpression (r : Rules) (inOperator typedArrow : Bool) : Phrase :=
  build .yieldExpression
    [key .yieldWord,
     first
       [seq [mark .times, r (.assignment inOperator typedArrow)],
        opt [sameLine, r (.assignment inOperator typedArrow)]]]

/-- A mark that assigns the result of an operator. -/
def augmentedAssign : Phrase :=
  first
    (([.plusAssign, .minusAssign, .timesAssign, .powerAssign, .divideAssign, .remainderAssign,
       .shiftLeftAssign, .andAssign, .orAssign, .xorAssign, .logicalAndAssign, .logicalOrAssign,
       .nullishAssign].map mark) ++
      [fun tokens =>
        match greaterSign? tokens with
        | some (none, node, rest) => some ([node], rest)
        | _ => none])

/-- One expression. -/
def assignmentRule (r : Rules) (inOperator typedArrow : Bool) : Phrase :=
  let value := r (.assignment inOperator typedArrow)
  first
    [r.arrowFunction inOperator typedArrow,
     r.yieldExpression inOperator typedArrow,
     andThen (r.conditional inOperator typedArrow) fun left =>
       first
         [extend .assignmentExpression (left.map Node.asPattern) [mark .assign, value],
          extend .augmentedAssignmentExpression left [augmentedAssign, value],
          emit left]]

/-- Expressions separated by commas. -/
def expressionRule (r : Rules) (inOperator : Bool) : Phrase :=
  chain (r (.assignment inOperator true)) fun left =>
    extend .sequenceExpression left [mark .comma, r (.assignment inOperator true)]

end Rules

end ModelGrid.Syntax
