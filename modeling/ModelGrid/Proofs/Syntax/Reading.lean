import ModelGrid.Proofs.Syntax.Phrase
import ModelGrid.Syntax.Grammar

/-!
# Reading types and expressions

How the grammar reads a few types and expressions wherever they stand: every lemma leaves the tokens
behind the construct open, apart from the first of them, which must not go on with it.

An expression is read through all levels of operators.  Each level adds nothing to what the tighter
one has read if the token behind closes the expression, so an operand is lifted through the levels
one after another; types likewise.

## Main definitions

* `Grammar.Closes`, `Grammar.EndsType`: tokens that end expressions and types.
* `Grammar.BeginsOperand`, `Grammar.BeginsPlainType`: tokens that are no operator of either.

## Main results

* `Grammar.read_type_of_primaryType`: a type without operators.
* `Grammar.read_assignment_of_operand`: an expression without operators.
-/

namespace ModelGrid.Syntax.Grammar

open Phrase Rules

variable {n : Nat} {t s : Token} {tokens rest : List Token} {nodes : List Node}

/-! ### One goal -/

section Goals

variable (n : Nat) (tokens : List Token)

theorem read_expression (inOperator : Bool) :
    read (n + 1) (.expression inOperator) tokens = (read n).expressionRule inOperator tokens := rfl

theorem read_assignment (inOperator typedArrow : Bool) :
    read (n + 1) (.assignment inOperator typedArrow) tokens =
      (read n).assignmentRule inOperator typedArrow tokens := rfl

theorem read_binary (level : Nat) (inOperator : Bool) :
    read (n + 1) (.binary level inOperator) tokens =
      (read n).binaryRule level inOperator tokens := rfl

theorem read_unary : read (n + 1) .unary tokens = (read n).unaryRule tokens := rfl

theorem read_operand : read (n + 1) .operand tokens = (read n).operandRule tokens := rfl

theorem read_construction :
    read (n + 1) .construction tokens = (read n).constructionRule tokens := rfl

theorem read_type : read (n + 1) .type tokens = (read n).typeRule tokens := rfl

theorem read_unionType : read (n + 1) .unionType tokens = (read n).unionRule tokens := rfl

theorem read_pattern : read (n + 1) .pattern tokens = (read n).patternRule tokens := rfl

theorem read_statement : read (n + 1) .statement tokens = (read n).statementRule tokens := rfl

end Goals

/-! ### Types -/

/-- The token does not go on with the type in front of it: it is none of the marks that do, and no
word on the same line that does. -/
def EndsType (t : Token) : Prop :=
  t.kind ∉ [.mark .dot, .mark .less, .mark .openBracket, .mark .bitAnd, .mark .bitOr] ∧
    (t.afterBreak = false → t.kind ≠ .word (some .extendsWord))

theorem EndsType.of_mark {m : Punctuator} (kind : s.kind = .mark m)
    (other : m ∉ [.dot, .less, .openBracket, .bitAnd, .bitOr] := by decide) : EndsType s := by
  refine ⟨?_, fun _ => by simp [kind]⟩
  simpa [kind] using other

/-- A word on a new line begins something else. -/
theorem EndsType.of_line (word : s.isWord = true) (line : s.afterBreak = true) : EndsType s := by
  obtain ⟨keyword, kind⟩ := Token.isWord_iff.mp word
  exact ⟨by simp [kind], fun same => by rw [line] at same; cases same⟩

/-- The token begins no operator of types and no function type. -/
def BeginsPlainType (t : Token) : Prop :=
  t.kind ∉
    [.mark .less, .mark .openParen, .mark .bitAnd, .mark .bitOr, .word (some .keyofWord),
     .word (some .uniqueWord), .word (some .readonlyWord), .word (some .inferWord),
     .word (some .abstractWord), .word (some .newWord)]

theorem postfixType_of_primaryType {r : Rules}
    (primary : r.primaryType tokens = some (nodes, s :: rest)) (ends : EndsType s) :
    r.postfixType tokens = some (nodes, s :: rest) := by
  have other := ends.1
  simp only [List.mem_cons, List.not_mem_nil, or_false, not_or] at other
  cases breaks : s.afterBreak <;> simp [postfixType, primary, breaks, other]

theorem operatorType_of_primaryType {r : Rules} (begins : BeginsPlainType t)
    (primary : r.primaryType (t :: tokens) = some (nodes, s :: rest)) (ends : EndsType s)
    (fuel : Nat) : operatorType r fuel (t :: tokens) = some (nodes, s :: rest) := by
  have whole := postfixType_of_primaryType primary ends
  simp only [BeginsPlainType, List.mem_cons, List.not_mem_nil, or_false, not_or] at begins
  cases fuel with
  | zero => exact whole
  | succ fuel => simp [operatorType, functionType, constructorType, begins, whole]

theorem read_unionType_of_primaryType (begins : BeginsPlainType t)
    (primary : (read n).primaryType (t :: tokens) = some (nodes, s :: rest)) (ends : EndsType s) :
    read (n + 1) .unionType (t :: tokens) = some (nodes, s :: rest) := by
  have operand := operatorType_of_primaryType begins primary ends 8
  have other := ends.1
  simp only [BeginsPlainType, List.mem_cons, List.not_mem_nil, or_false, not_or] at begins other
  simp [read_unionType, unionRule, begins, operand, other]

/-- A type without operators is read as a type. -/
theorem read_type_of_primaryType (begins : BeginsPlainType t)
    (primary : (read n).primaryType (t :: tokens) = some (nodes, s :: rest)) (ends : EndsType s) :
    read (n + 2) .type (t :: tokens) = some (nodes, s :: rest) := by
  have union := read_unionType_of_primaryType begins primary ends
  cases breaks : s.afterBreak with
  | true => simp [read_type, typeRule, union, breaks]
  | false => simp [read_type, typeRule, union, breaks, ends.2 breaks]

theorem typeReference_name (r : Rules) (name : t.kind = .word none) (ends : EndsType s) :
    r.typeReference (t :: s :: rest) = some ([.leaf .typeIdentifier t.start t.stop], s :: rest) := by
  have other := ends.1
  simp only [List.mem_cons, List.not_mem_nil, or_false, not_or] at other
  cases breaks : s.afterBreak <;>
    simp [typeReference, Token.isIdentifier, typeArguments, name, other, breaks]

theorem primaryType_of_typeReference {r : Rules} (name : t.kind = .word none)
    (reference : r.typeReference (t :: tokens) = some (nodes, rest)) :
    r.primaryType (t :: tokens) = some (nodes, rest) := by
  simp [primaryType, typeMembers, template, literalType, typeQuery, importType, predefinedType,
    name, reference]

/-- A name is a type. -/
theorem read_type_name (n : Nat) (rest : List Token) (name : t.kind = .word none) (ends : EndsType s) :
    read (n + 2) .type (t :: s :: rest) =
      some ([.leaf .typeIdentifier t.start t.stop], s :: rest) :=
  read_type_of_primaryType (by simp [BeginsPlainType, name])
    (primaryType_of_typeReference name (typeReference_name _ name ends)) ends

section Generic

variable {o u c : Token} (opens : o.kind = .mark .less) (argument : u.kind = .word none)
  (closes : c.kind = .mark .greater)

include opens argument closes

/-- A name in angle brackets is an argument of a type. -/
theorem typeArguments_name (n : Nat) (rest : List Token) :
    (read (n + 2)).typeArguments (o :: u :: c :: rest) =
      some
        ([.branch .typeArguments
            [.leaf .punctuation o.start o.stop, .leaf .typeIdentifier u.start u.stop,
             .leaf .punctuation c.start c.stop]],
         rest) := by
  have type : read (n + 2) .type (u :: c :: rest) =
      some ([.leaf .typeIdentifier u.start u.stop], c :: rest) :=
    read_type_name n rest argument (.of_mark closes)
  simp [typeArguments, opens, type, closes, kindOfMark]

theorem typeReference_generic (n : Nat) (rest : List Token) (name : t.kind = .word none)
    (line : o.afterBreak = false) :
    (read (n + 2)).typeReference (t :: o :: u :: c :: rest) =
      some
        ([.branch .genericType
            [.leaf .typeIdentifier t.start t.stop,
             .branch .typeArguments
               [.leaf .punctuation o.start o.stop, .leaf .typeIdentifier u.start u.stop,
                .leaf .punctuation c.start c.stop]]],
         rest) := by
  have arguments := typeArguments_name opens argument closes n rest
  simp [typeReference, Token.isIdentifier, name, opens, line, arguments]

/-- A name with a name in angle brackets is a type. -/
theorem read_type_generic (n : Nat) (rest : List Token) (name : t.kind = .word none)
    (line : o.afterBreak = false) (ends : EndsType s) :
    read (n + 4) .type (t :: o :: u :: c :: s :: rest) =
      some
        ([.branch .genericType
            [.leaf .typeIdentifier t.start t.stop,
             .branch .typeArguments
               [.leaf .punctuation o.start o.stop, .leaf .typeIdentifier u.start u.stop,
                .leaf .punctuation c.start c.stop]]],
         s :: rest) :=
  read_type_of_primaryType (by simp [BeginsPlainType, name])
    (primaryType_of_typeReference name
      (typeReference_generic opens argument closes n (s :: rest) name line)) ends

end Generic

/-- A type behind a colon is the type of a function's result. -/
theorem returnType_of_type {c : Token} {type : Node} (colon : c.kind = .mark .colon)
    (no_asserts : (read n).asserts tokens = none)
    (no_predicate : (read n).typePredicate tokens = none)
    (result : read n .type tokens = some ([type], rest)) :
    (read n).returnType (c :: tokens) =
      some ([.branch .typeAscription [.leaf .punctuation c.start c.stop, type]], rest) := by
  simp [returnType, colon, typeAscription, no_asserts, no_predicate, result, kindOfMark]

/-- The words of the language's types that say nothing else. -/
def typeWords : List Keyword := [.stringWord, .numberWord, .booleanWord, .unknownWord]

/-- A type of the language. -/
theorem read_type_predefined (n : Nat) (rest : List Token) {keyword : Keyword}
    (word : t.kind = .word (some keyword))
    (predefined : keyword ∈ typeWords) (ends : EndsType s) :
    read (n + 2) .type (t :: s :: rest) =
      some ([.leaf .predefinedType t.start t.stop], s :: rest) := by
  simp only [typeWords, List.mem_cons, List.not_mem_nil, or_false] at predefined
  have primary : (read n).primaryType (t :: s :: rest) =
      some ([.leaf .predefinedType t.start t.stop], s :: rest) := by
    have other := ends.1
    simp only [List.mem_cons, List.not_mem_nil, or_false, not_or] at other
    rcases predefined with rfl | rfl | rfl | rfl <;>
      simp [primaryType, typeMembers, template, literalType, typeQuery, importType, predefinedType,
        word, other]
  refine read_type_of_primaryType ?_ primary ends
  rcases predefined with rfl | rfl | rfl | rfl <;> simp [BeginsPlainType, word]

/-! ### Expressions -/

/-- The marks that end an expression wherever it stands. -/
def closers : List Punctuator :=
  [.closeParen, .closeBracket, .closeBrace, .semicolon, .colon]

/-- A mark that ends the expression in front of it. -/
def Closes (t : Token) : Prop := ∃ m ∈ closers, t.kind = .mark m

theorem closes_of_kind {m : Punctuator} (kind : s.kind = .mark m) (mem : m ∈ closers := by decide) :
    Closes s :=
  ⟨m, mem, kind⟩

/-- The token is one of the marks, or the word that begins the next statement. -/
def EndsAt (marks : List Punctuator) (t : Token) : Prop :=
  t.kind = .word (some .returnWord) ∨ ∃ m ∈ marks, t.kind = .mark m

/-- The token ends the expression in front of it. -/
abbrev EndsExpression (t : Token) : Prop := EndsAt closers t

/-- The token ends the value in front of it: a comma may follow one. -/
abbrev EndsValue (t : Token) : Prop := EndsAt (.comma :: closers) t

/-- The token ends the operand in front of it, and does not go on with it by an operator between two
operands: the choice between two values may follow one. -/
abbrev EndsOperand (t : Token) : Prop := EndsAt (.question :: .comma :: closers) t

theorem EndsAt.of_kind {marks : List Punctuator} {m : Punctuator} (kind : s.kind = .mark m)
    (mem : m ∈ marks := by decide) : EndsAt marks s :=
  .inr ⟨m, mem, kind⟩

theorem EndsAt.mono {marks more : List Punctuator} (ends : EndsAt marks s)
    (subset : ∀ m ∈ marks, m ∈ more) : EndsAt more s :=
  ends.imp_right fun ⟨m, mem, kind⟩ => ⟨m, subset m mem, kind⟩

theorem EndsExpression.endsValue (ends : EndsExpression s) : EndsValue s :=
  ends.mono fun _ mem => .tail _ mem

theorem EndsValue.endsOperand (ends : EndsValue s) : EndsOperand s :=
  ends.mono fun _ mem => .tail _ mem

theorem Closes.endsExpression (closes : Closes s) : EndsExpression s := .inr closes

theorem Closes.endsValue (closes : Closes s) : EndsValue s := closes.endsExpression.endsValue

theorem Closes.endsOperand (closes : Closes s) : EndsOperand s := closes.endsValue.endsOperand

/-- The token begins no operator in front of an operand. -/
def BeginsOperand (t : Token) : Prop :=
  t.kind ∉
    [.mark .bang, .mark .minus, .mark .plus, .mark .bitNot, .mark .increment, .mark .decrement,
     .mark .less, .word (some .typeofWord), .word (some .voidWord), .word (some .deleteWord),
     .word (some .awaitWord), .word (some .yieldWord)]

theorem ne_of_mem_marks {marks : List Punctuator} {m m' : Punctuator} (mem : m ∈ marks)
    (other : m' ∉ marks) : m ≠ m' := by
  rintro rfl
  exact other mem

theorem operandSuffix_of_ends (r : Rules) (left : List Node) (ends : EndsOperand s) :
    r.operandSuffix left (s :: rest) = none := by
  rcases ends with kind | ⟨m, mem, kind⟩
  · cases breaks : s.afterBreak <;>
      simp [operandSuffix, memberSuffix, memberName, arguments, template, typeArguments, kind, breaks]
  · have other (m' : Punctuator) (no : m' ∉ .question :: .comma :: closers) : m ≠ m' :=
      ne_of_mem_marks mem no
    cases breaks : s.afterBreak <;>
      simp [operandSuffix, memberSuffix, memberName, arguments, template, typeArguments, kind, other,
        closers, breaks]

theorem binarySuffix_of_ends (r : Rules) (level : Nat) (inOperator : Bool) (left : List Node)
    (ends : EndsOperand s) : r.binarySuffix level inOperator left (s :: rest) = none := by
  have no_operator : binaryOperator? inOperator (s :: rest) = none := by
    rcases ends with kind | ⟨m, mem, kind⟩
    · simp [binaryOperator?, kind]
    · simp only [closers, List.mem_cons, List.not_mem_nil, or_false] at mem
      rcases mem with rfl | rfl | rfl | rfl | rfl | rfl | rfl <;>
        simp [binaryOperator?, kind, markOperator?]
  have no_type (keyword : Keyword) (other : keyword ≠ .returnWord) :
      s.kind ≠ .word (some keyword) := by
    rcases ends with kind | ⟨m, -, kind⟩
    · simpa [kind] using other.symm
    · simp [kind]
  unfold binarySuffix
  cases breaks : s.afterBreak <;> split <;> simp [breaks, no_type, no_operator]

theorem read_unary_of_operand (begins : BeginsOperand t)
    (operand : read n .operand (t :: tokens) = some (nodes, s :: rest)) (ends : EndsOperand s) :
    read (n + 1) .unary (t :: tokens) = some (nodes, s :: rest) := by
  simp only [BeginsOperand, List.mem_cons, List.not_mem_nil, or_false, not_or] at begins
  have no_update (m' : Punctuator) (no : m' ∉ .question :: .comma :: closers) :
      s.kind ≠ .mark m' := by
    rcases ends with kind | ⟨m, mem, kind⟩
    · simp [kind]
    · simpa [kind] using ne_of_mem_marks mem no
  cases breaks : s.afterBreak <;>
    simp [read_unary, unaryRule, typeArguments, begins, operand, breaks, no_update, closers]

theorem read_binary_of_unary (level : Nat) (inOperator : Bool)
    (unary : read n .unary tokens = some (nodes, s :: rest)) (ends : EndsOperand s) :
    read (n + 1) (.binary level inOperator) tokens = some (nodes, s :: rest) := by
  simp [read_binary, binaryRule, unary, binarySuffix_of_ends _ _ _ _ ends]

theorem read_assignment_of_conditional {inOperator typedArrow : Bool} (begins : BeginsOperand t)
    (no_arrow : (read n).arrowFunction inOperator typedArrow (t :: tokens) = none)
    (conditional : (read n).conditional inOperator typedArrow (t :: tokens) =
      some (nodes, s :: rest))
    (ends : EndsValue s) :
    read (n + 1) (.assignment inOperator typedArrow) (t :: tokens) = some (nodes, s :: rest) := by
  simp only [BeginsOperand, List.mem_cons, List.not_mem_nil, or_false, not_or] at begins
  rcases ends with kind | ⟨m, mem, kind⟩
  · simp [read_assignment, assignmentRule, no_arrow, yieldExpression, begins, conditional, kind,
      augmentedAssign, greaterSign?, Token.mark?]
  · have other (m' : Punctuator) (no : m' ∉ .comma :: closers) : m ≠ m' := ne_of_mem_marks mem no
    simp [read_assignment, assignmentRule, no_arrow, yieldExpression, begins, conditional, kind,
      other, closers, augmentedAssign, greaterSign?, Token.mark?]

theorem conditional_of_binary {inOperator typedArrow : Bool}
    (binary : read n (.binary 0 inOperator) tokens = some (nodes, s :: rest))
    (ends : EndsValue s) :
    (read n).conditional inOperator typedArrow tokens = some (nodes, s :: rest) := by
  have no_choice : s.kind ≠ .mark .question := by
    rcases ends with kind | ⟨m, mem, kind⟩
    · simp [kind]
    · have other : m ≠ .question := ne_of_mem_marks mem (by decide)
      simpa [kind] using other
  simp [conditional, binary, no_choice]

/-- An operand is read as an expression if it does not begin a function with an arrow. -/
theorem read_assignment_of_operand {inOperator typedArrow : Bool} (begins : BeginsOperand t)
    (no_arrow : (read (n + 2)).arrowFunction inOperator typedArrow (t :: tokens) = none)
    (operand : read n .operand (t :: tokens) = some (nodes, s :: rest)) (ends : EndsValue s) :
    read (n + 3) (.assignment inOperator typedArrow) (t :: tokens) = some (nodes, s :: rest) := by
  have unary := read_unary_of_operand begins operand ends.endsOperand
  have binary := read_binary_of_unary 0 inOperator unary ends.endsOperand
  exact read_assignment_of_conditional begins no_arrow (conditional_of_binary binary ends) ends

theorem read_expression_of_assignment {inOperator : Bool}
    (assignment : read n (.assignment inOperator true) tokens = some (nodes, s :: rest))
    (ends : EndsExpression s) :
    read (n + 1) (.expression inOperator) tokens = some (nodes, s :: rest) := by
  have no_comma : s.kind ≠ .mark .comma := by
    rcases ends with kind | ⟨m, mem, kind⟩
    · simp [kind]
    · have other : m ≠ .comma := ne_of_mem_marks mem (by decide)
      simpa [kind] using other
  simp [read_expression, expressionRule, assignment, no_comma]

theorem read_operand_of_primary (no_new : t.kind ≠ .word (some .newWord))
    (no_import : t.kind ≠ .word (some .importWord))
    (primary : (read (n + 1)).primary (t :: tokens) = some (nodes, s :: rest))
    (ends : EndsOperand s) :
    read (n + 2) .operand (t :: tokens) = some (nodes, s :: rest) := by
  simp [read_operand, operandRule, metaProperty, read_construction, constructionRule, no_new,
    no_import, primary, operandSuffix_of_ends _ _ ends]

/-- A name is an expression. -/
theorem read_expression_name (n : Nat) (rest : List Token) (name : t.kind = .word none) (closes : Closes s) :
    read (n + 6) (.expression true) (t :: s :: rest) =
      some ([.leaf .identifier t.start t.stop], s :: rest) := by
  have begins : BeginsOperand t := by simp [BeginsOperand, name]
  have no_arrow : (read (n + 4)).arrowFunction true true (t :: s :: rest) = none := by
    obtain ⟨m, mem, kind⟩ := closes
    have other (m' : Punctuator) (no : m' ∉ closers) : m ≠ m' := ne_of_mem_marks mem no
    simp [arrowFunction, name, Token.isIdentifier, typeParameters, kind, other, closers]
  have primary : (read (n + 1)).primary (t :: s :: rest) =
      some ([.leaf .identifier t.start t.stop], s :: rest) := by
    simp [primary, template, metaProperty, parenthesized, array, object, functionExpression,
      classExpression, decorator, Token.isIdentifier, name]
  have operand := read_operand_of_primary (by simp [name]) (by simp [name]) primary
    closes.endsOperand
  exact read_expression_of_assignment
    (read_assignment_of_operand begins no_arrow operand closes.endsValue) closes.endsExpression

/-- A string is an expression. -/
theorem read_assignment_string (n : Nat) (rest : List Token) (string : t.kind = .string)
    (ends : EndsValue s) :
    read (n + 5) (.assignment true true) (t :: s :: rest) =
      some ([.leaf .stringLiteral t.start t.stop], s :: rest) := by
  have begins : BeginsOperand t := by simp [BeginsOperand, string]
  have no_arrow : (read (n + 4)).arrowFunction true true (t :: s :: rest) = none := by
    simp [arrowFunction, string, Token.isIdentifier, typeParameters]
  have primary : (read (n + 1)).primary (t :: s :: rest) =
      some ([.leaf .stringLiteral t.start t.stop], s :: rest) := by
    simp [primary, string]
  have operand := read_operand_of_primary (by simp [string]) (by simp [string]) primary
    ends.endsOperand
  exact read_assignment_of_operand begins no_arrow operand ends

/-! ### Ends of constructs -/

/-- Nothing but a statement begins with a mark that ends an expression.  The induction is on how many
goals may be inside one another: each goal begins with a token of its own or with another goal. -/
theorem read_of_closes (closes : Closes s) (n : Nat) (rest : List Token) (goal : Goal)
    (other : goal ≠ .statement) : read n goal (s :: rest) = none := by
  obtain ⟨m, mem, kind⟩ := closes
  have ne (m' : Punctuator) (no : m' ∉ closers) : m ≠ m' := ne_of_mem_marks mem no
  induction n generalizing goal with
  | zero => rfl
  | succ n ih =>
    -- the rules that look at the token themselves
    have no_primary : (read n).primary (s :: rest) = none := by
      simp [primary, template, metaProperty, parenthesized, array, object, functionExpression,
        classExpression, decorator, Token.isIdentifier, kind, ne, closers]
    have no_postfix : (read n).postfixType (s :: rest) = none := by
      simp [postfixType, primaryType, typeMembers, template, literalType, typeQuery, importType,
        predefinedType, typeReference, Token.isIdentifier, kind, ne, closers]
    have no_operator (fuel : Nat) : operatorType (read n) fuel (s :: rest) = none := by
      cases fuel with
      | zero => exact no_postfix
      | succ fuel =>
        simp [operatorType, functionType, constructorType, no_postfix, kind, ne, closers]
    cases goal with
    | statement => exact absurd rfl other
    | expression inOperator =>
      have inner := ih (.assignment inOperator true) (by simp)
      simp [read_expression, expressionRule, inner]
    | assignment inOperator typedArrow =>
      have inner := ih (.binary 0 inOperator) (by simp)
      cases typedArrow <;>
        simp [read_assignment, assignmentRule, arrowFunction, yieldExpression, conditional, inner,
          typeParameters, Token.isIdentifier, kind, ne, closers]
    | binary level inOperator =>
      have inner := ih .unary (by simp)
      simp [read_binary, binaryRule, inner]
    | unary =>
      have inner := ih .operand (by simp)
      simp [read_unary, unaryRule, typeArguments, inner, kind, ne, closers]
    | operand =>
      have inner := ih .construction (by simp)
      simp [read_operand, operandRule, metaProperty, inner, no_primary, kind]
    | construction => simp [read_construction, constructionRule, kind]
    | type =>
      have inner := ih .unionType (by simp)
      simp [read_type, typeRule, inner]
    | unionType => simp [read_unionType, unionRule, no_operator, kind, ne, closers]
    | pattern => simp [read_pattern, patternRule, Token.isIdentifier, kind, ne, closers]

/-- Only a brace begins an expression that looks like a block. -/
theorem labelledBrace_of_ne (other : t.kind ≠ .mark .openBrace) :
    labelledBrace (t :: tokens) = false := by
  have no_brace : (t.mark? == some .openBrace) = false := by
    obtain ⟨kind, _, _, _⟩ := t
    cases kind <;> simp_all [Token.mark?]
  unfold labelledBrace
  split
  · next eq =>
    cases eq
    rw [no_brace, Bool.false_and, Bool.false_and]
  · rfl

/-- A brace in front of what is no name opens a block. -/
theorem labelledBrace_of_head
    (no_name : ∀ token later, tokens = token :: later → token.isIdentifier = false) :
    labelledBrace (t :: tokens) = false := by
  unfold labelledBrace
  split
  · next eq =>
    cases eq
    rw [no_name _ _ rfl, Bool.and_false, Bool.false_and]
  · rfl

/-! ### Statements -/

/-- The token begins no block and no statement that a keyword of its own begins. -/
def BeginsPlainStatement (t : Token) : Prop :=
  t.kind ∉
    [.mark .openBrace, .mark .semicolon, .word (some .ifWord), .word (some .forWord),
     .word (some .whileWord), .word (some .doWord), .word (some .switchWord), .word (some .tryWord),
     .word (some .withWord), .word (some .breakWord), .word (some .continueWord),
     .word (some .returnWord), .word (some .throwWord), .word (some .debuggerWord)]

theorem read_statement_of_plain (begins : BeginsPlainStatement t) (n : Nat) (tokens : List Token) :
    read (n + 1) .statement (t :: tokens) =
      first
        [(read n).decoratedStatement, (read n).importStatement, (read n).exportStatement [],
         (read n).ambientDeclaration, (read n).namespaceStatement, (read n).declaration [],
         (read n).labeledStatement, (read n).expressionStatement] (t :: tokens) := by
  simp only [BeginsPlainStatement, List.mem_cons, List.not_mem_nil, or_false, not_or] at begins
  have no_label : labelledBrace (t :: tokens) = false := labelledBrace_of_ne begins.1
  simp [read_statement, statementRule, no_label, block, ifStatement, forInStatement, forStatement,
    whileStatement, doStatement, switchStatement, tryStatement, jump, begins]

/-- No statement begins with a closing brace. -/
theorem read_statement_closeBrace (brace : s.kind = .mark .closeBrace) (n : Nat) :
    read n .statement (s :: rest) = none := by
  cases n with
  | zero => rfl
  | succ n =>
    have no_expression :=
      read_of_closes (closes_of_kind brace) n rest (.expression true) nofun
    have no_declaration : (read n).declaration [] (s :: rest) = none := by
      simp [declaration, variableList, function, classDeclaration, interface, typeAlias, enumeration,
        internalModule, moduleDeclaration, brace]
    have no_import : (read n).importStatement (s :: rest) = none := by
      simp [importStatement, brace]
    have no_export : (read n).exportStatement [] (s :: rest) = none := by
      simp [exportStatement, brace]
    rw [read_statement_of_plain (by simp [BeginsPlainStatement, brace])]
    simp [decoratedStatement, no_import, no_export, ambientDeclaration, namespaceStatement,
      internalModule, no_declaration, labeledStatement, expressionStatement, no_expression,
      Token.isIdentifier, brace]

/-! ### Files -/

/-- The tokens are those of statements, and the nodes are what the grammar makes of them. -/
inductive Statements (n : Nat) : List Token → List Node → Prop
  | nil : Statements n [] []
  | cons {t : Token} {tokens rest : List Token} {node : Node} {nodes : List Node}
      (one : read n .statement (t :: tokens) = some ([node], rest))
      (less : rest.length < tokens.length + 1) (later : Statements n rest nodes) :
      Statements n (t :: tokens) (node :: nodes)

theorem Statements.many_eq (statements : Statements n tokens nodes) (others : List Phrase) :
    many (first (read n .statement :: others)) tokens = some (nodes, []) := by
  induction statements with
  | nil => rfl
  | cons one less later ih => simp [one, less, ih]

/-- The tree of a file whose tokens are those of statements. -/
theorem program_of_statements
    (statements : Statements (goalsPerToken * ((t :: tokens).length + 1)) (t :: tokens) nodes)
    (no_line : t.kind ≠ .interpreterLine) : program (t :: tokens) = .branch .program nodes := by
  have statements := statements.many_eq
    [(read (goalsPerToken * ((t :: tokens).length + 1))).decorator, stray]
  rw [program]
  simp only [seq_cons, opt_apply, token_cons, no_line, if_false, statements, seq_nil, List.nil_append,
    List.append_nil]

/-- The tree of the tokens of a file begins with the statements that are read first, and goes on with
what is read at the top of a file. -/
theorem program_of_reads {later : List Token}
    (reads : ∀ n, Reads (read (n + 1) .statement) (t :: tokens) nodes later)
    (no_line : t.kind ≠ .interpreterLine) :
    ∃ others, program (t :: tokens) = .branch .program (nodes ++ others) ∧
      ∃ fuel after, many (first [read fuel .statement, (read fuel).decorator, stray]) later =
        some (others, after) := by
  obtain ⟨n, fuel⟩ : ∃ n, goalsPerToken * ((t :: tokens).length + 1) = n + 1 :=
    ⟨_, (Nat.sub_add_cancel (Nat.mul_pos (by decide) (Nat.succ_pos _))).symm⟩
  obtain ⟨others, after, behind, list⟩ :=
    ((reads n).first [(read (n + 1)).decorator, stray]).many_append
  refine ⟨others, ?_, n + 1, after, behind⟩
  rw [program]
  simp only [fuel, seq_cons, opt_apply, token_cons, no_line, if_false, list,
    seq_nil, List.nil_append, List.append_nil]

end ModelGrid.Syntax.Grammar
