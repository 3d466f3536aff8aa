import ModelGrid.Syntax.Grammar.Type

/-!
# Patterns

A pattern names the parts of a value that it is matched against.  In front of an assignment it is
first read as a value, since only the `=` after it tells the two apart.

## Main definitions

* `Rules.patternRule`: the pattern of a declaration or parameter.
* `Node.asPattern`: the pattern that an array or object becomes in front of an assignment.
-/

namespace ModelGrid.Syntax

namespace Rules

open Phrase

/-- A pattern with the value it takes where there is none. -/
def defaulted (r : Rules) : Phrase :=
  andThen (r .pattern) fun left =>
    first [extend .assignmentPattern left [mark .assign, r.value], emit left]

/-- The rest of the parts, in a pattern. -/
def restPattern (r : Rules) : Phrase :=
  build .restPattern [mark .ellipsis, r .pattern]

/-- An entry of a pattern for objects. -/
def objectPatternEntry (r : Rules) : Phrase :=
  first
    [r.restPattern,
     build .pairPattern
       [role .key r.propertyName, mark .colon, role .value r.defaulted],
     andThen (name .shorthandPropertyIdentifierPattern) fun left =>
       first [extend .objectAssignmentPattern left [mark .assign, r.value], emit left]]

/-- The pattern of a declaration or parameter. -/
def patternRule (r : Rules) : Phrase :=
  first
    [name .identifier,
     build .objectPattern
       [mark .openBrace, commaList r.objectPatternEntry, mark .closeBrace],
     build .arrayPattern
       [mark .openBracket, commaList (first [r.restPattern, r.defaulted]), mark .closeBracket]]

end Rules

mutual

/-- The pattern that a value becomes in front of an assignment. -/
def Node.asPattern : Node → Node
  | .node label children =>
    match label.kind with
    | .array => .node { label with kind := .arrayPattern } (Node.asPatterns children)
    | .object => .node { label with kind := .objectPattern } (Node.asPatterns children)
    | .pair => .node { label with kind := .pairPattern } (Node.asPatterns children)
    | .spreadElement => .node { label with kind := .restPattern } (Node.asPatterns children)
    | .assignmentExpression => .node { label with kind := .assignmentPattern } children
    | .shorthandPropertyIdentifier =>
      .node { label with kind := .shorthandPropertyIdentifierPattern } children
    | _ => .node label children

def Node.asPatterns : List Node → List Node
  | [] => []
  | child :: rest => child.asPattern :: Node.asPatterns rest

end

end ModelGrid.Syntax
