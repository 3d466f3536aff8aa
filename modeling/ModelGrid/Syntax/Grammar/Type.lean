import ModelGrid.Syntax.Grammar.Goal

/-!
# Types

## Main definitions

* `Rules.typeRule`, `Rules.unionRule`: a type, and one that is no conditional type.
* `Rules.typeAscription`, `Rules.returnType`: a type after a colon.
* `Rules.parameters`, `Rules.signature`: what may be passed to a function, and of what types.
* `Rules.typeMembers`: the members of an object type or interface.
-/

namespace ModelGrid.Syntax.Rules

open Phrase

/-- A type after a colon. -/
def typeAscription (r : Rules) : Phrase :=
  build .typeAscription [mark .colon, r .type]

/-- The statement that a parameter, or the receiver, is of a type. -/
def typePredicate (r : Rules) : Phrase :=
  build .typePredicate
    [first [keyAs .thisExpression .thisWord, name .identifier], sameLine, key .isWord, r .type]

/-- The promise that a parameter holds, or is of a type. -/
def asserts (r : Rules) : Phrase :=
  build .asserts
    [key .assertsWord, sameLine,
     first [r.typePredicate, keyAs .thisExpression .thisWord, name .identifier]]

/-- What follows the colon or arrow of a function's result. -/
def resultType (r : Rules) : Phrase :=
  first [r.asserts, r.typePredicate, r .type]

/-- The type of a function's result, after a colon. -/
def returnType (r : Rules) : Phrase :=
  first
    [build .assertsAscription [mark .colon, r.asserts],
     build .typePredicateAscription [mark .colon, r.typePredicate],
     r.typeAscription]

/-- Types in angle brackets. -/
def typeArguments (r : Rules) : Phrase :=
  build .typeArguments
    [mark .less, separated .comma (r .type), opt [mark .comma], mark .greater]

/-- The parameter of a generic construct.  A word before its name states its variance. -/
def typeParameter (r : Rules) : Phrase :=
  build .typeParameter
    [many
       (first
         [key .constWord, key .inWord,
          seq [leaf .keyword Token.isIdentifier, ahead (name .typeIdentifier)]]),
     name .typeIdentifier,
     opt [build .constraint [key .extendsWord, r .type]],
     opt [build .defaultType [mark .assign, r .type]]]

/-- The parameters of a generic construct. -/
def typeParameters (r : Rules) : Phrase :=
  build .typeParameters
    [mark .less, separated .comma r.typeParameter, opt [mark .comma], mark .greater]

/-- A value called or taken apart in a decorator: a dotted name, a call of one, or an expression
in parentheses. -/
def decorator (r : Rules) : Phrase :=
  let dotted :=
    chain (name .identifier) fun left =>
      extend .memberExpression left [mark .dot, anyWord .propertyIdentifier]
  build .decorator
    [mark .decorator,
     first
       [r.parenthesized,
        andThen dotted fun left =>
          first
            [build .callExpression
               [emit (left.map (Node.withField .function)),
                opt [r.typeArguments], role .arguments r.arguments],
             emit left]]]

/-- A word that says how a parameter is kept as a member. -/
def parameterModifier : Phrase :=
  seq
    [first
       [keyAs .accessibilityModifier .publicWord, keyAs .accessibilityModifier .privateWord,
        keyAs .accessibilityModifier .protectedWord, keyAs .overrideModifier .overrideWord,
        key .readonlyWord],
     ahead (first [anyWord .identifier, mark .openBrace, mark .openBracket])]

/-- A parameter of a function. -/
def parameter (r : Rules) : Phrase :=
  andThen
    (seq
      [many r.decorator, many parameterModifier,
       first
         [build .restPattern [mark .ellipsis, r .pattern],
          keyAs .thisExpression .thisWord,
          r .pattern]])
    fun left =>
      let rest := [opt [r.typeAscription], opt [mark .assign, role .value r.value]]
      first
        [extend .optionalParameter left (mark .question :: rest),
         extend .requiredParameter left rest]

/-- The parameters of a function. -/
def parameters (r : Rules) : Phrase :=
  build .formalParameters [mark .openParen, commaList r.parameter, mark .closeParen]

/-- What may be passed to a function, and of what types. -/
def signature (r : Rules) : Phrase :=
  seq [opt [r.typeParameters], r.parameters, opt [r.returnType]]

/-- The type of a function. -/
def functionType (r : Rules) : Phrase :=
  seq
    [first [ahead (mark .less), groupThen (mark .arrow)],
     build .functionType [opt [r.typeParameters], r.parameters, mark .arrow, r.resultType]]

/-- The type of a constructor. -/
def constructorType (r : Rules) : Phrase :=
  build .constructorType
    [opt [key .abstractWord], key .newWord, opt [r.typeParameters], r.parameters, mark .arrow,
     r .type]

/-- A dotted name, with type arguments if they begin on the same line. -/
def typeReference (r : Rules) : Phrase :=
  andThen
    (chain (name .typeIdentifier) fun left =>
      extend .nestedTypeIdentifier left [mark .dot, anyWord .typeIdentifier])
    fun left =>
      first [extend .genericType left [sameLine, r.typeArguments], emit left]

/-- A module that a type is taken from, with the way to the type. -/
def importType (r : Rules) : Phrase :=
  chain
    (build .callExpression
      [role .function (keyAs .importCallee .importWord), role .arguments r.arguments])
    fun left =>
      first
        [extend .memberExpression left [mark .dot, anyWord .propertyIdentifier],
         extend .genericType left [sameLine, r.typeArguments]]

/-- The type of a value. -/
def typeQuery (r : Rules) : Phrase :=
  build .typeQuery
    [key .typeofWord,
     chain
       (first [r.importType, keyAs .thisExpression .thisWord, name .identifier])
       fun left =>
         extend .memberExpression left
           [mark .dot,
            first
              [anyWord .propertyIdentifier,
               token .privatePropertyIdentifier .privateName]],
     opt [sameLine, r.typeArguments]]

/-- A word that names a type of the language. -/
def predefinedType : Phrase :=
  seq
    [first
       ([.anyWord, .numberWord, .booleanWord, .stringWord, .symbolWord, .unknownWord, .neverWord,
         .objectWord, .bigintWord, .voidWord].map (keyAs .predefinedType)),
     notAhead (mark .dot)]

/-- A type with a single value. -/
def literalType : Phrase :=
  build .literalType
    [first
       [token .stringLiteral .string,
        token .numberLiteral .number,
        build .unaryExpression
          [first [mark .minus, mark .plus], token .numberLiteral .number],
        keyAs .trueLiteral .trueWord, keyAs .falseLiteral .falseWord,
        keyAs .nullLiteral .nullWord, keyAs .undefinedLiteral .undefinedWord]]

/-- A member of a tuple type. -/
def tupleMember (r : Rules) : Phrase :=
  let labelled :=
    build .requiredParameter
      [anyWord .identifier, opt [mark .question], mark .colon, r .type]
  first
    [labelled,
     build .restType [mark .ellipsis, first [labelled, r .type]],
     andThen (r .type) fun left =>
       first [extend .optionalType left [mark .question], emit left]]

/-- A mark that adds or drops a modifier of a mapped type. -/
def mappedModifier (p : Phrase) : Phrase :=
  opt [opt [first [mark .plus, mark .minus]], p]

/-- The members that a key of some type selects. -/
def indexSignature (r : Rules) : Phrase :=
  build .indexSignature
    [mappedModifier (key .readonlyWord),
     mark .openBracket,
     first
       [seq [name .identifier, r.typeAscription],
        build .mappedTypeClause
          [name .typeIdentifier, key .inWord, r .type, opt [key .asWord, r .type]]],
     mark .closeBracket,
     mappedModifier (mark .question),
     opt [r.typeAscription]]

/-- A word before the name of a type's member. -/
def typeMemberModifier : Phrase :=
  seq
    [first
       [keyAs .accessibilityModifier .publicWord, keyAs .accessibilityModifier .privateWord,
        keyAs .accessibilityModifier .protectedWord, key .staticWord,
        keyAs .overrideModifier .overrideWord, key .readonlyWord, key .getWord, key .setWord,
        key .asyncWord, key .exportWord],
     ahead
       (first
         [anyWord .identifier, token .stringLiteral .string, token .numberLiteral .number,
          mark .openBracket, token .privatePropertyIdentifier .privateName, mark .times])]

/-- A member of an object type or interface. -/
def typeMember (r : Rules) : Phrase :=
  first
    [r.indexSignature,
     build .callSignature [r.signature],
     build .constructSignature
       [key .newWord, opt [r.typeParameters], r.parameters, opt [r.returnType]],
     andThen (seq [many typeMemberModifier, opt [mark .times], r.propertyName, opt [mark .question]])
       fun left =>
         first
           [extend .methodSignature left [r.signature],
            extend .propertySignature left [opt [r.typeAscription]]]]

/-- The members of an object type or interface, each ended by a semicolon, a comma, the end of a
line, or the closing brace. -/
def typeMembers (kind : Kind) (r : Rules) : Phrase :=
  build kind
    [mark .openBrace,
     many
       (first
         [mark .comma, mark .semicolon,
          seq [r.typeMember, first [mark .comma, semicolon]]]),
     mark .closeBrace]

/-- A type that needs no parentheses in front of brackets. -/
def primaryType (r : Rules) : Phrase :=
  first
    [build .parenthesizedType [mark .openParen, r .type, mark .closeParen],
     typeMembers .objectType r,
     build .tupleType [mark .openBracket, commaList r.tupleMember, mark .closeBracket],
     template .templateLiteralType .templateType (r .type),
     literalType,
     keyAs .thisType .thisWord,
     r.typeQuery,
     r.importType,
     predefinedType,
     key .constWord,
     r.typeReference]

/-- A type with brackets after it: an array of it, or the type of one of its members. -/
def postfixType (r : Rules) : Phrase :=
  chain r.primaryType fun left =>
    first
      [extend .arrayType left [sameLine, mark .openBracket, mark .closeBracket],
       extend .lookupType left [sameLine, mark .openBracket, r .type, mark .closeBracket]]

/-- A type with the operators in front of it, at most `fuel` of them. -/
def operatorType (r : Rules) : Nat → Phrase
  | 0 => r.postfixType
  | fuel + 1 =>
    let operand := operatorType r fuel
    first
      [build .indexTypeQuery [key .keyofWord, operand],
       build .predefinedType [key .uniqueWord, key .symbolWord],
       build .readonlyType [key .readonlyWord, operand],
       build .inferType
         [key .inferWord, name .typeIdentifier,
          opt [key .extendsWord, r .unionType, notAhead (mark .question)]],
       r.functionType,
       r.constructorType,
       r.postfixType]

/-- A type that is no conditional type, unless in parentheses. -/
def unionRule (r : Rules) : Phrase :=
  let operand := operatorType r 8
  let intersection :=
    chain (first [build .intersectionType [mark .bitAnd, operand], operand]) fun left =>
      extend .intersectionType left [mark .bitAnd, operand]
  chain (first [build .unionType [mark .bitOr, intersection], intersection]) fun left =>
    extend .unionType left [mark .bitOr, intersection]

/-- A type. -/
def typeRule (r : Rules) : Phrase :=
  andThen (r .unionType) fun left =>
    first
      [extend .conditionalType left
         [sameLine, key .extendsWord,
          first
            [seq [r .unionType, ahead (mark .question)],
             build .inferType
               [key .inferWord, name .typeIdentifier, key .extendsWord, r .unionType]],
          mark .question, r .type, mark .colon, r .type],
       emit left]

end ModelGrid.Syntax.Rules
