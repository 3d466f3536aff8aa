import ModelGrid.Proofs.Edit.Anchor
import ModelGrid.Proofs.Syntax.ImportGrammar

/-!
# Statements of the skeletons

How the grammar reads the statements that the skeletons of the data service and of the constants are
made of.  The lemmas are about tokens of given kinds, whatever the words and strings among them say,
so the names of the component and of its model do not matter.

Of what only stands in front of an anchor, no more is said than that a search passes over it; the
branch that leads to an anchor is written out.

## Main results

* `Grammar.read_import`: an import of names in braces.
* `Grammar.read_decorated`: a decorated class that is exported.
* `Grammar.read_exported`: a constant that is exported.
-/

namespace ModelGrid.Syntax.Grammar

open Phrase Rules
open Edit.Anchor (passesOver)

variable {n : Nat} {t s : Token} {tokens later rest : List Token}

/-! ### Imports -/

section NamedImports

variable {o x c : Token} (opens : o.kind = .mark .openBrace) (name : x.kind = .word none)
  (closes : c.kind = .mark .closeBrace)

include opens name closes

theorem namedImports_one (rest : List Token) :
    ∃ node, namedImports (o :: x :: c :: rest) = some ([node], rest) ∧
      node.allKinds passesOver = true := by
  simp [namedImports, importSpecifier, exportName, Token.isWord, opens, name, closes]
  simp [passesOver, kindOfMark]

theorem namedImports_two {m y : Token} (comma : m.kind = .mark .comma) (other : y.kind = .word none)
    (rest : List Token) :
    ∃ node, namedImports (o :: x :: m :: y :: c :: rest) = some ([node], rest) ∧
      node.allKinds passesOver = true := by
  simp [namedImports, importSpecifier, exportName, Token.isWord, opens, name, comma, other, closes]
  simp [passesOver, kindOfMark]

end NamedImports

/-- An import of names in braces. -/
theorem read_import (n : Nat) {i o f p e : Token} {names : Node}
    (import' : i.kind = .word (some .importWord))
    (opens : o.kind = .mark .openBrace)
    (clause : namedImports (o :: tokens) = some ([names], f :: p :: e :: rest))
    (passed : names.allKinds passesOver = true) (from' : f.kind = .word (some .fromWord))
    (path : p.kind = .string) (ends : e.kind = .mark .semicolon) :
    ∃ node, read (n + 1) .statement (i :: o :: tokens) = some ([node], rest) ∧
      node.allKinds passesOver = true := by
  have read := read_importStatement n import' path ends (by simp [opens]) (by simp [opens])
    (importClause_of_namedImports opens clause) from'
  exact ⟨_, read, by simp [passed, passesOver]⟩

/-! ### Decorators -/

section Decorator

variable {o k c v b : Token} (brace : o.kind = .mark .openBrace) (key : k.kind = .word none)
  (colon : c.kind = .mark .colon) (value : v.kind = .string) (brace' : b.kind = .mark .closeBrace)

include brace key colon value brace'

/-- An object with a string in it. -/
theorem object_pair (n : Nat) (rest : List Token) :
    ∃ node, (read (n + 5)).object (o :: k :: c :: v :: b :: rest) = some ([node], rest) ∧
      node.allKinds passesOver = true := by
  have string := read_assignment_string n rest value (closes_of_kind brace').endsValue
  have entry : (read (n + 5)).objectEntry (k :: c :: v :: b :: rest) =
      some
        ([.branch .pair
            [(Node.leaf .propertyIdentifier k.start k.stop).withField .key,
             .leaf .punctuation c.start c.stop,
             (Node.leaf .stringLiteral v.start v.stop).withField .value]],
         b :: rest) := by
    simp [objectEntry, methodModifier, propertyName, Token.isWord, signature, parameters,
      typeParameters, Rules.value, key, colon, string, kindOfMark]
  have no_entry : (read (n + 5)).objectEntry (b :: rest) = none := by
    simp [objectEntry, methodModifier, propertyName, Token.isWord, Token.isIdentifier, brace']
  simp [object, brace, entry, no_entry, key, brace']
  simp [passesOver, kindOfMark]

theorem read_assignment_object (n : Nat) (rest : List Token) (closes : Closes s) :
    ∃ node,
      read (n + 9) (.assignment true true) (o :: k :: c :: v :: b :: s :: rest) =
          some ([node], s :: rest) ∧
        node.allKinds passesOver = true := by
  obtain ⟨node, object, passed⟩ := object_pair brace key colon value brace' n (s :: rest)
  have begins : BeginsOperand o := by simp [BeginsOperand, brace]
  have no_arrow : (read (n + 8)).arrowFunction true true (o :: k :: c :: v :: b :: s :: rest) =
      none := by
    simp [arrowFunction, brace, Token.isIdentifier, typeParameters]
  have primary : (read (n + 5)).primary (o :: k :: c :: v :: b :: s :: rest) =
      some ([node], s :: rest) := by
    simp [primary, template, metaProperty, parenthesized, array, brace, object]
  have operand := read_operand_of_primary (by simp [brace]) (by simp [brace]) primary
    closes.endsOperand
  exact ⟨node, read_assignment_of_operand begins no_arrow operand closes.endsValue, passed⟩

/-- A decorator that is called with an object. -/
theorem decorator_call (n : Nat) (rest : List Token) {d f p q : Token}
    (at' : d.kind = .mark .decorator)
    (callee : f.kind = .word none) (opens : p.kind = .mark .openParen)
    (closes : q.kind = .mark .closeParen) :
    ∃ node,
      (read (n + 9)).decorator (d :: f :: p :: o :: k :: c :: v :: b :: q :: rest) =
          some ([node], rest) ∧
        node.allKinds passesOver = true := by
  obtain ⟨node, argument, passed⟩ :=
    read_assignment_object brace key colon value brace' n rest (closes_of_kind closes)
  have no_argument : read (n + 9) (.assignment true true) (q :: rest) = none :=
    read_of_closes (closes_of_kind closes) _ _ _ (by simp)
  simp [decorator, parenthesized, arguments, listEntry, Rules.value, typeArguments,
    Token.isIdentifier, at', callee, opens, brace, argument, no_argument, closes, passed]
  simp [passesOver, kindOfMark]

end Decorator

/-! ### Constants -/

/-- An object made of a class with a type argument and without arguments. -/
theorem read_assignment_new (n : Nat) (rest : List Token) {w x o u c p q : Token}
    (new : w.kind = .word (some .newWord)) (callee : x.kind = .word none) (opens : o.kind = .mark .less) (argument : u.kind = .word none)
    (closes : c.kind = .mark .greater) (paren : p.kind = .mark .openParen)
    (paren' : q.kind = .mark .closeParen) (ends : Closes s) :
    ∃ node,
      read (n + 7) (.assignment true true) (w :: x :: o :: u :: c :: p :: q :: s :: rest) =
          some ([node], s :: rest) ∧
        node.allKinds passesOver = true := by
  have primary (tokens : List Token) :
      (read (n + 2)).primary (x :: tokens) = some ([.leaf .identifier x.start x.stop], tokens) := by
    simp [primary, template, metaProperty, parenthesized, array, object, functionExpression,
      classExpression, decorator, Token.isIdentifier, callee]
  have no_construction (tokens : List Token) : read (n + 2) .construction (x :: tokens) = none := by
    simp [read_construction, constructionRule, callee]
  have no_suffix (left : List Node) :
      (read (n + 2)).memberSuffix left (o :: u :: c :: p :: q :: s :: rest) = none := by
    simp [memberSuffix, opens]
  have types := typeArguments_name opens argument closes n (p :: q :: s :: rest)
  have no_argument : read (n + 2) (.assignment true true) (q :: s :: rest) = none :=
    read_of_closes (closes_of_kind paren') _ _ _ (by simp)
  have operand : ∃ node,
      read (n + 4) .operand (w :: x :: o :: u :: c :: p :: q :: s :: rest) =
          some ([node], s :: rest) ∧
        node.allKinds passesOver = true := by
    cases breaks : o.afterBreak <;>
      simp [read_operand, operandRule, metaProperty, read_construction (n + 2), constructionRule,
        arguments, listEntry, Rules.value, new, callee, no_construction, primary, no_suffix, opens,
        breaks, types, paren, no_argument, paren', operandSuffix_of_ends _ _ ends.endsOperand] <;>
      simp [passesOver, kindOfMark]
  obtain ⟨node, operand, passed⟩ := operand
  have begins : BeginsOperand w := by simp [BeginsOperand, new]
  have no_arrow :
      (read (n + 6)).arrowFunction true true (w :: x :: o :: u :: c :: p :: q :: s :: rest) =
        none := by
    simp [arrowFunction, new, Token.isIdentifier, Keyword.isReserved, typeParameters]
  exact ⟨node, read_assignment_of_operand begins no_arrow operand ends.endsValue, passed⟩

/-- A constant with its value. -/
theorem declaration_const {k x a e : Token} {value : Node} (const : k.kind = .word (some .constWord))
    (name : x.kind = .word none) (assign : a.kind = .mark .assign)
    (read_value : read (n + 1) (.assignment true true) tokens = some ([value], e :: rest))
    (ends : e.kind = .mark .semicolon) :
    (read (n + 1)).declaration [] (k :: x :: a :: tokens) =
      some
        ([.branch .lexicalDeclaration
            [.leaf .keyword k.start k.stop,
             .branch .variableDeclarator
               [.leaf .identifier x.start x.stop, .leaf .punctuation a.start a.stop,
                value.withField .value],
             .leaf .semicolon e.start e.stop]],
         rest) := by
  have pattern : read (n + 1) .pattern (x :: a :: tokens) =
      some ([.leaf .identifier x.start x.stop], a :: tokens) := by
    simp [read_pattern, patternRule, name, Token.isIdentifier]
  simp [declaration, variableList, declarator, Rules.value, typeAscription, const, name, pattern,
    assign, read_value, ends, kindOfMark]

/-- A constant as a statement ends in its semicolon. -/
theorem read_const {k x a e : Token} {value : Node} (const : k.kind = .word (some .constWord))
    (name : x.kind = .word none) (assign : a.kind = .mark .assign)
    (read_value : read (n + 1) (.assignment true true) tokens = some ([value], e :: rest))
    (passed : value.allKinds passesOver = true) (ends : e.kind = .mark .semicolon) :
    ∃ node, read (n + 2) .statement (k :: x :: a :: tokens) = some ([node], rest) ∧
      node.allKinds passesOver = true ∧ node.isExtra = false ∧ node.lastTokenStop = e.stop := by
  have declaration := declaration_const const name assign read_value ends
  rw [read_statement_of_plain (by simp [BeginsPlainStatement, const])]
  simp [decoratedStatement, importStatement, exportStatement, ambientDeclaration, namespaceStatement,
    internalModule, const, declaration, passed]
  simp [passesOver, Node.isExtra, Node.branch, Node.leaf, Node.label, Node.lastTokenStop,
    Node.lastTokenStopIn]

/-! ### Blocks and classes -/

theorem semicolon_of_mark {e : Token} (ends : e.kind = .mark .semicolon) (rest : List Token) :
    semicolon (e :: rest) = some ([.leaf .semicolon e.start e.stop], rest) := by
  simp [ends]

/-- In front of a new line the semicolon may be left out. -/
theorem semicolon_of_line (line : s.afterBreak = true) (other : s.kind ≠ .mark .semicolon)
    (rest : List Token) : semicolon (s :: rest) = some ([], s :: rest) := by
  simp [line, other]

/-- A `return` of a value, which goes on to the semicolon or to where it may be left out. -/
theorem read_return {k t : Token} {value : Node} {end' : List Node} {after : List Token}
    (return' : k.kind = .word (some .returnWord)) (line : t.afterBreak = false)
    (one : read n (.expression true) (t :: tokens) = some ([value], rest))
    (ends : semicolon rest = some (end', after)) :
    read (n + 1) .statement (k :: t :: tokens) =
      some
        ([.branch .returnStatement (.leaf .returnKeyword k.start k.stop :: value :: end')], after) := by
  have no_label : labelledBrace (k :: t :: tokens) = false := labelledBrace_of_ne (by simp [return'])
  simp [read_statement, statementRule, no_label, block, ifStatement, forInStatement, forStatement,
    whileStatement, doStatement, switchStatement, tryStatement, jump, return', line, one, ends]

section Block

variable {o b : Token} (opens : o.kind = .mark .openBrace) (closes : b.kind = .mark .closeBrace)

include opens closes

/-- Statements in braces. -/
theorem block_of_reads {nodes : List Node}
    (statements : Reads (read n .statement) tokens nodes (b :: rest)) :
    (read n).block (o :: tokens) =
      some
        ([.branch .statementBlock
            (.leaf .openBrace o.start o.stop :: nodes ++ [.leaf .punctuation b.start b.stop])],
         rest) := by
  have list := (statements.first [seq [(mark .closeBrace).notAhead, stray]]).many_eq
    (by simp [read_statement_closeBrace closes n, closes])
  simp [block, opens, list, closes, kindOfMark]

/-- A class with one member. -/
theorem classTail_of_member {member : Node}
    (one : (read n).classMember (t :: tokens) = some ([member], b :: rest))
    (less : (b :: rest).length < (t :: tokens).length) :
    (read n).classTail (o :: t :: tokens) =
      some
        ([(Node.branch .classBody
            [.leaf .openBrace o.start o.stop, member,
             .leaf .punctuation b.start b.stop]).withField .body],
         rest) := by
  have no_member : (read n).classMember (b :: rest) = none := by
    simp [classMember, decorator, indexSignature, mappedModifier, namedMember, memberModifier,
      propertyName, Token.isWord, closes]
  simp only [List.length_cons] at less
  simp [classTail, typeParameters, classHeritage, extendsClause, implementsClause, classBody, opens,
    one, closes, no_member, less, kindOfMark]

end Block

/-- The signature of a function without parameters whose result is of a generic type. -/
theorem signature_generic (n : Nat) (rest : List Token) {p q c f o u g : Token}
    (paren : p.kind = .mark .openParen) (paren' : q.kind = .mark .closeParen) (colon : c.kind = .mark .colon)
    (name : f.kind = .word none) (opens : o.kind = .mark .less) (line : o.afterBreak = false)
    (argument : u.kind = .word none) (closes : g.kind = .mark .greater) (ends : EndsType s) :
    ∃ parameters result,
      (read (n + 4)).signature (p :: q :: c :: f :: o :: u :: g :: s :: rest) =
          some ([parameters, result], s :: rest) ∧
        parameters.allKinds passesOver = true ∧ result.allKinds passesOver = true := by
  have type := read_type_generic opens argument closes n rest name line ends
  have no_asserts : (read (n + 4)).asserts (f :: o :: u :: g :: s :: rest) = none := by
    simp [asserts, name]
  have no_predicate : (read (n + 4)).typePredicate (f :: o :: u :: g :: s :: rest) = none := by
    simp [typePredicate, Token.isIdentifier, name, opens, line]
  have result := returnType_of_type colon no_asserts no_predicate type
  have no_pattern := read_of_closes (closes_of_kind paren') (n + 4)
    (c :: f :: o :: u :: g :: s :: rest) .pattern (by simp)
  have no_parameter :
      (read (n + 4)).parameter (q :: c :: f :: o :: u :: g :: s :: rest) = none := by
    simp [parameter, decorator, parameterModifier, paren', no_pattern]
  simp [signature, typeParameters, parameters, paren, paren', no_parameter, result]
  simp [passesOver, kindOfMark]

/-- A method as a member of a class. -/
theorem classMember_method {m : Token} {parameters result body : Node} (name : m.kind = .word none)
    (paren : t.kind = .mark .openParen)
    (signature : (read n).signature (t :: tokens) = some ([parameters, result], later))
    (block : (read n).block later = some ([body], s :: rest)) (brace : s.kind = .mark .closeBrace) :
    (read n).classMember (m :: t :: tokens) =
      some
        ([.branch .methodDefinition
            [.leaf .propertyIdentifier m.start m.stop, parameters, result, body.withField .body]],
         s :: rest) := by
  simp [classMember, decorator, indexSignature, mappedModifier, namedMember, memberModifier,
    propertyName, Token.isWord, name, paren, signature, block, brace]

/-- A decorated class that is exported. -/
theorem read_decorated {d e k x : Token} {decorated body : Node} (at' : d.kind = .mark .decorator)
    (decorator : (read n).decorator (d :: tokens) = some ([decorated], e :: k :: x :: later))
    (less : (e :: k :: x :: later).length < (d :: tokens).length)
    (export' : e.kind = .word (some .exportWord)) (class' : k.kind = .word (some .classWord))
    (name : x.kind = .word none) (tail : (read n).classTail later = some ([body], rest)) :
    read (n + 1) .statement (d :: tokens) =
      some
        ([.branch .exportStatement
            [decorated, .leaf .keyword e.start e.stop,
             .branch .classDeclaration
               [.leaf .keyword k.start k.stop, .leaf .typeIdentifier x.start x.stop, body]]],
         rest) := by
  have no_decorator (u : Token) (tokens : List Token) (other : u.kind ≠ .mark .decorator) :
      (read n).decorator (u :: tokens) = none := by
    simp [Rules.decorator, other]
  simp only [List.length_cons] at less
  rw [read_statement_of_plain (by simp [BeginsPlainStatement, at'])]
  simp [decoratedStatement, exportStatement, exportClause, importStatement, ambientDeclaration,
    declaration, variableList, function, classDeclaration, Token.isIdentifier, decorator, at', less,
    no_decorator, export', class', name, tail]

/-! ### Functions with an arrow -/

/-- The type of objects whose keys are texts. -/
theorem read_type_index (n : Nat) (rest : List Token) {o b k c u l c' v r : Token}
    (opens : o.kind = .mark .openBrace) (bracket : b.kind = .mark .openBracket) (key : k.kind = .word none)
    (colon : c.kind = .mark .colon) (index : u.kind = .word (some .stringWord))
    (bracket' : l.kind = .mark .closeBracket) (colon' : c'.kind = .mark .colon)
    (value : v.kind = .word (some .unknownWord)) (closes : r.kind = .mark .closeBrace)
    (ends : EndsType s) :
    ∃ node,
      read (n + 4) .type (o :: b :: k :: c :: u :: l :: c' :: v :: r :: s :: rest) =
          some ([node], s :: rest) ∧
        node.allKinds passesOver = true := by
  have string := read_type_predefined n (c' :: v :: r :: s :: rest) index (by decide)
    (.of_mark bracket')
  have unknown := read_type_predefined n (s :: rest) value (by decide) (.of_mark closes)
  have member : ∃ node,
      (read (n + 2)).typeMember (b :: k :: c :: u :: l :: c' :: v :: r :: s :: rest) =
          some ([node], r :: s :: rest) ∧
        node.allKinds passesOver = true := by
    simp [typeMember, indexSignature, mappedModifier, typeAscription, Token.isIdentifier, bracket, key,
      colon, string, bracket', colon', unknown]
    simp [passesOver, kindOfMark]
  obtain ⟨node, member, passed⟩ := member
  have no_member : (read (n + 2)).typeMember (r :: s :: rest) = none := by
    simp [typeMember, indexSignature, mappedModifier, signature, typeParameters, parameters,
      typeMemberModifier, propertyName, Token.isWord, closes]
  have primary : ∃ node,
      (read (n + 2)).primaryType (o :: b :: k :: c :: u :: l :: c' :: v :: r :: s :: rest) =
          some ([node], s :: rest) ∧
        node.allKinds passesOver = true := by
    simp [primaryType, typeMembers, Token.mark?, opens, bracket, member, closes, no_member, passed]
    simp [passesOver, kindOfMark]
  obtain ⟨node, primary, passed⟩ := primary
  exact ⟨node, read_type_of_primaryType (by simp [BeginsPlainType, opens]) primary ends, passed⟩

/-- One parameter with its type. -/
theorem parameters_one (n : Nat) (rest : List Token) {p x c u q : Token} (opens : p.kind = .mark .openParen)
    (name : x.kind = .word none) (colon : c.kind = .mark .colon) (type : u.kind = .word none)
    (closes : q.kind = .mark .closeParen) :
    ∃ node, (read (n + 2)).parameters (p :: x :: c :: u :: q :: rest) = some ([node], rest) ∧
      node.label.field = none := by
  have read_name := read_type_name n rest type (.of_mark closes)
  have pattern (tokens : List Token) :
      read (n + 2) .pattern (x :: tokens) = some ([.leaf .identifier x.start x.stop], tokens) := by
    simp [read_pattern, patternRule, name, Token.isIdentifier]
  have no_pattern := read_of_closes (closes_of_kind closes) (n + 2) rest .pattern (by simp)
  have parameter : ∃ node,
      (read (n + 2)).parameter (x :: c :: u :: q :: rest) = some ([node], q :: rest) := by
    simp [parameter, decorator, parameterModifier, typeAscription, name, pattern, colon, read_name,
      closes]
  obtain ⟨node, parameter⟩ := parameter
  have no_parameter : (read (n + 2)).parameter (q :: rest) = none := by
    simp [Rules.parameter, decorator, parameterModifier, closes, no_pattern]
  simp [parameters, opens, name, parameter, no_parameter, closes]
  rfl

/-- A function with an arrow and a block for its body. -/
theorem read_arrow {p a o b : Token} {params result : Node} {inner : List Token} {nodes : List Node}
    (paren : p.kind = .mark .openParen)
    (group : skipGroup tokens.length 0 tokens = some (s :: later)) (colon : s.kind = .mark .colon)
    (parameters : (read n).parameters (p :: tokens) = some ([params], s :: later))
    (no_role : params.label.field = none)
    (type : (read n).returnType (s :: later) = some ([result], a :: o :: inner))
    (no_role' : result.label.field = none) (arrow : a.kind = .mark .arrow)
    (opens : o.kind = .mark .openBrace) (no_label : labelledBrace (o :: inner) = false)
    (statements : Reads (read n .statement) inner nodes (b :: rest))
    (closes : b.kind = .mark .closeBrace) :
    ∃ node, read (n + 1) (.assignment true true) (p :: tokens) = some ([node], rest) ∧
      node.kind = .arrowFunction ∧ Edit.Anchor.bodyStart? node = some o.stop := by
  have body := block_of_reads opens closes statements
  let block : Node :=
    .branch .statementBlock
      (.leaf .openBrace o.start o.stop :: nodes ++ [Node.leaf .punctuation b.start b.stop])
  let whole : Node :=
    .branch .arrowFunction
      ([params, result, .leaf .punctuation a.start a.stop] ++ [block.withField .body])
  have closed : whole.isClosed = true := by
    have last : block.children.getLast? = some (.leaf .punctuation b.start b.stop) :=
      List.getLast?_concat
    have of_block : whole.children.getLast?.bind (fun node => node.children.getLast?) =
        block.children.getLast? := rfl
    rw [Node.isClosed, of_block, last]
    rfl
  have start : Edit.Anchor.bodyStart? whole = some o.stop := by
    refine Edit.Anchor.bodyStart?_branch ?_ _ _ _
    intro node mem
    simp only [List.mem_cons, List.not_mem_nil, or_false] at mem
    rcases mem with rfl | rfl | rfl
    · rw [no_role]
      simp
    · rw [no_role']
      simp
    · simp [Node.leaf, Node.label]
  refine ⟨whole, ?_, rfl, start⟩
  simp [read_assignment, assignmentRule, arrowFunction, typeParameters, Token.isIdentifier, paren,
    group, colon, parameters, type, arrow, no_label, body, kindOfMark]
  exact if_pos closed

/-- A constant that is exported. -/
theorem read_exported {e k x a z : Token} {value : Node} (export' : e.kind = .word (some .exportWord))
    (const : k.kind = .word (some .constWord)) (name : x.kind = .word none)
    (assign : a.kind = .mark .assign)
    (read_value : read (n + 1) (.assignment true true) tokens = some ([value], z :: rest))
    (ends : z.kind = .mark .semicolon) :
    read (n + 2) .statement (e :: k :: x :: a :: tokens) =
      some
        ([.branch .exportStatement
            [.leaf .keyword e.start e.stop,
             .branch .lexicalDeclaration
               [.leaf .keyword k.start k.stop,
                .branch .variableDeclarator
                  [.leaf .identifier x.start x.stop, .leaf .punctuation a.start a.stop,
                   value.withField .value],
                .leaf .semicolon z.start z.stop]]],
         rest) := by
  have declaration := declaration_const const name assign read_value ends
  rw [read_statement_of_plain (by simp [BeginsPlainStatement, export'])]
  simp [decoratedStatement, exportStatement, exportClause, importStatement, ambientDeclaration,
    decorator, export', const, declaration]

end ModelGrid.Syntax.Grammar
