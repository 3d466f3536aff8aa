import ModelGrid.Syntax.Grammar.Binding

/-!
# Classes

## Main definitions

* `Rules.classBody`: the members of a class.
* `Rules.classHeritage`: what a class extends and implements.
* `Rules.classExpression`: a class as a value.
-/

namespace ModelGrid.Syntax.Rules

open Phrase

/-- A word in front of a member of a class. -/
def memberModifier : Phrase :=
  seq
    [first
       [keyAs .accessibilityModifier .publicWord, keyAs .accessibilityModifier .privateWord,
        keyAs .accessibilityModifier .protectedWord, keyAs .overrideModifier .overrideWord,
        key .declareWord, key .staticWord, key .readonlyWord, key .abstractWord, key .asyncWord,
        key .getWord, key .setWord, key .accessorWord],
     ahead
       (first
         [anyWord .identifier, token .stringLiteral .string, token .numberLiteral .number,
          mark .openBracket, token .privatePropertyIdentifier .privateName, mark .times])]

/-- A member with a name: a method with its body, a method without one, or a field. -/
def namedMember (r : Rules) : Phrase :=
  andThen
    (seq
      [many memberModifier, opt [mark .times], r.propertyName,
       opt [first [mark .question, mark .bang]]])
    fun left =>
      first
        [andThen (seq [emit left, r.signature]) fun method =>
           first
             [seq [extend .methodDefinition method [role .body r.block], opt [mark .semicolon]],
              seq [extend .methodSignature method [], semicolon]],
         seq
           [extend .publicFieldDefinition left
              [opt [r.typeAscription], opt [mark .assign, role .value r.value]],
            semicolon]]

/-- A member of a class. -/
def classMember (r : Rules) : Phrase :=
  first
    [mark .semicolon,
     r.decorator,
     build .classStaticBlock [key .staticWord, role .body r.block],
     seq
       [many
          (seq
            [first [key .staticWord, key .readonlyWord, key .declareWord],
             ahead (first [anyWord .identifier, mark .openBracket])]),
        r.indexSignature, semicolon],
     r.namedMember]

/-- The members of a class. -/
def classBody (r : Rules) : Phrase :=
  braced .classBody r.classMember

/-- What a class extends: a value, as a rule another class. -/
def extendsClause (r : Rules) : Phrase :=
  build .extendsClause
    [key .extendsWord, separated .comma (seq [r .operand, opt [r.typeArguments]])]

/-- The interfaces that a class implements. -/
def implementsClause (r : Rules) : Phrase :=
  build .implementsClause [key .implementsWord, separated .comma (r .type)]

/-- What a class extends and implements. -/
def classHeritage (r : Rules) : Phrase :=
  opt
    [build .classHeritage
       [first
          [seq [r.extendsClause, opt [r.implementsClause]], r.implementsClause]]]

/-- The parts of a class after its name. -/
def classTail (r : Rules) : Phrase :=
  seq [opt [r.typeParameters], r.classHeritage, role .body r.classBody]

/-- A class as a value. -/
def classExpression (r : Rules) : Phrase :=
  build .classExpression
    [many r.decorator, key .classWord,
     opt [notAhead (key .implementsWord), name .typeIdentifier],
     r.classTail]

end ModelGrid.Syntax.Rules
