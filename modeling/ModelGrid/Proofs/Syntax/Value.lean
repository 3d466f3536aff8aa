import ModelGrid.Proofs.Syntax.Reading

/-!
# Reading calls and objects

How the grammar reads the values that calls, members and object literals make up, wherever they
stand.  What is in the parentheses or braces is given as a run of the repeated phrase
(`Phrase.Reads`), so its length is open.
-/

namespace ModelGrid.Syntax.Grammar

open Phrase Rules

variable {n : Nat} {t s : Token} {tokens rest : List Token} {nodes : List Node}

/-! ### Operands as values -/

/-- Only a parenthesis, type parameters or a name begin a function with an arrow. -/
theorem arrowFunction_of_no_name {r : Rules} {inOperator typedArrow : Bool}
    (begins : t.kind ∉ [.mark .openParen, .mark .less, .word (some .asyncWord)])
    (no_name : t.isIdentifier = false) :
    r.arrowFunction inOperator typedArrow (t :: tokens) = none := by
  simp only [List.mem_cons, List.not_mem_nil, or_false, not_or] at begins
  cases typedArrow <;> simp [arrowFunction, no_name, begins, typeParameters]

/-- A name begins a function with an arrow only in front of the arrow. -/
theorem arrowFunction_of_name {r : Rules} {inOperator typedArrow : Bool}
    (name : t.kind = .word none) (no_arrow : s.kind ≠ .mark .arrow) :
    r.arrowFunction inOperator typedArrow (t :: s :: tokens) = none := by
  cases typedArrow <;> simp [arrowFunction, name, no_arrow, Token.isIdentifier, typeParameters]

theorem beginsOperand_of_name (name : t.kind = .word none) : BeginsOperand t := by
  simp [BeginsOperand, name]

/-- A name is an operand by itself. -/
theorem primary_name (r : Rules) (name : t.kind = .word none) (tokens : List Token) :
    r.primary (t :: tokens) = some ([.leaf .identifier t.start t.stop], tokens) := by
  simp [primary, template, metaProperty, parenthesized, array, object, functionExpression,
    classExpression, decorator, Token.isIdentifier, name]

/-- A name with members and calls behind it is an operand. -/
theorem read_operand_of_extends (name : t.kind = .word none)
    (extended : Extends (read (n + 1)).operandSuffix [.leaf .identifier t.start t.stop] tokens nodes
      (s :: rest))
    (ends : EndsOperand s) : read (n + 2) .operand (t :: tokens) = some (nodes, s :: rest) := by
  refine extended.chain_eq ?_ (operandSuffix_of_ends _ _ ends)
  simp [metaProperty, read_construction, constructionRule, primary_name, name]

/-- A member behind an operand. -/
theorem operandSuffix_member (r : Rules) (left : List Node) {d x : Token} (dot : d.kind = .mark .dot)
    (word : x.isWord = true) (rest : List Token) :
    r.operandSuffix left (d :: x :: rest) =
      some
        ([.branch .memberExpression
            (left ++ [.leaf .punctuation d.start d.stop, .leaf .propertyIdentifier x.start x.stop])],
         rest) := by
  simp [operandSuffix, memberSuffix, memberName, dot, word, kindOfMark]

/-- A call behind an operand. -/
theorem operandSuffix_call {r : Rules} {p : Token} {args : Node} (left : List Node)
    (opens : p.kind = .mark .openParen)
    (arguments : r.arguments (p :: tokens) = some ([args], rest)) :
    r.operandSuffix left (p :: tokens) =
      some
        ([.branch .callExpression
            (left.map (Node.withField .function) ++ [args.withField .arguments])],
         rest) := by
  simp [operandSuffix, memberSuffix, opens, arguments]

/-! ### Arguments -/

/-- A comma in a list. -/
theorem reads_comma (p : Phrase) (comma : t.kind = .mark .comma) (rest : List Token) :
    Reads (first [mark .comma, p]) (t :: rest) [.leaf .punctuation t.start t.stop] rest :=
  .single (by simp [comma, kindOfMark]) (by simp)

/-- A value in a list of arguments. -/
theorem reads_argument {value : Node} (no_comma : t.kind ≠ .mark .comma)
    (no_spread : t.kind ≠ .mark .ellipsis)
    (one : read n (.assignment true true) (t :: tokens) = some ([value], rest))
    (less : rest.length < (t :: tokens).length) :
    Reads (first [mark .comma, (read n).listEntry]) (t :: tokens) [value] rest :=
  .single (by simp [listEntry, Rules.value, no_comma, no_spread, one]) less

/-- Arguments in parentheses. -/
theorem arguments_of_reads {p q : Token} (opens : p.kind = .mark .openParen)
    (entries : Reads (first [mark .comma, (read n).listEntry]) tokens nodes (q :: rest))
    (closes : q.kind = .mark .closeParen) :
    (read n).arguments (p :: tokens) =
      some
        ([.branch .arguments
            (.leaf .punctuation p.start p.stop :: nodes ++ [.leaf .punctuation q.start q.stop])],
         rest) := by
  have no_value := read_of_closes (closes_of_kind closes) n rest (.assignment true true) nofun
  have list := entries.many_eq (by simp [listEntry, Rules.value, closes, no_value])
  simp [arguments, opens, list, closes, kindOfMark]

/-! ### Values -/

/-- The missing value. -/
theorem read_assignment_null (n : Nat) (rest : List Token)
    (null : t.kind = .word (some .nullWord)) (ends : EndsValue s) :
    read (n + 5) (.assignment true true) (t :: s :: rest) =
      some ([.leaf .nullLiteral t.start t.stop], s :: rest) := by
  have primary : (read (n + 1)).primary (t :: s :: rest) =
      some ([.leaf .nullLiteral t.start t.stop], s :: rest) := by
    simp [primary, null]
  have operand := read_operand_of_primary (by simp [null]) (by simp [null]) primary ends.endsOperand
  refine read_assignment_of_operand (by simp [BeginsOperand, null]) ?_ operand ends
  exact arrowFunction_of_no_name (by simp [null])
    (by simp [Token.isIdentifier, null, Keyword.isReserved])

/-- A name with members and calls behind it is a value. -/
theorem read_assignment_of_extends (name : t.kind = .word none) (no_arrow : s.kind ≠ .mark .arrow)
    {e : Token}
    (extended : Extends (read (n + 1)).operandSuffix [.leaf .identifier t.start t.stop]
      (s :: tokens) nodes (e :: rest))
    (ends : EndsValue e) :
    read (n + 5) (.assignment true true) (t :: s :: tokens) = some (nodes, e :: rest) :=
  read_assignment_of_operand (beginsOperand_of_name name) (arrowFunction_of_name name no_arrow)
    (read_operand_of_extends name extended ends.endsOperand) ends

/-- An object made of a class with arguments. -/
theorem read_assignment_new_call {w x p : Token} {args : Node}
    (new : w.kind = .word (some .newWord)) (callee : x.kind = .word none)
    (opens : p.kind = .mark .openParen)
    (arguments : (read (n + 1)).arguments (p :: tokens) = some ([args], s :: rest))
    (ends : EndsValue s) :
    read (n + 6) (.assignment true true) (w :: x :: p :: tokens) =
      some
        ([.branch .newExpression
            [.leaf .keyword w.start w.stop, .leaf .identifier x.start x.stop,
             args.withField .arguments]],
         s :: rest) := by
  have no_construction : read (n + 1) .construction (x :: p :: tokens) = none := by
    simp [read_construction, constructionRule, callee]
  have operand : read (n + 3) .operand (w :: x :: p :: tokens) =
      some
        ([.branch .newExpression
            [.leaf .keyword w.start w.stop, .leaf .identifier x.start x.stop,
             args.withField .arguments]],
         s :: rest) := by
    cases breaks : p.afterBreak <;>
      simp [read_operand, operandRule, metaProperty, read_construction (n + 1), constructionRule,
        new, callee, no_construction, primary_name, memberSuffix, typeArguments, opens, breaks,
        arguments, operandSuffix_of_ends _ _ ends.endsOperand]
  refine read_assignment_of_operand (by simp [BeginsOperand, new]) ?_ operand ends
  exact arrowFunction_of_no_name (by simp [new])
    (by simp [Token.isIdentifier, new, Keyword.isReserved])

/-- A choice between two values. -/
theorem conditional_choice {q c : Token} {left one two : List Node} {later after : List Token}
    (condition : read n (.binary 0 true) tokens = some (left, q :: later))
    (question : q.kind = .mark .question)
    (value : read n (.assignment true true) later = some (one, c :: rest))
    (colon : c.kind = .mark .colon)
    (other : read n (.assignment true true) rest = some (two, s :: after)) :
    (read n).conditional true true tokens =
      some
        ([.branch .ternaryExpression
            (left ++ .leaf .punctuation q.start q.stop :: one ++
              .leaf .punctuation c.start c.stop :: two)],
         s :: after) := by
  simp [conditional, condition, question, value, colon, other, kindOfMark]

/-! ### Objects -/

/-- A word in front of a colon is the name of an entry, whatever else it means. -/
theorem methodModifier_of_colon {k c : Token} (colon : c.kind = .mark .colon) (tokens : List Token) :
    methodModifier (k :: c :: tokens) = none := by
  refine modifier_eq_none ?_ (by simp [Token.isWord, colon])
  simp only [List.forall_mem_cons, List.not_mem_nil, false_implies, implies_true, and_true]
  exact ⟨⟨_, _, rfl⟩, ⟨_, _, rfl⟩, ⟨_, _, rfl⟩, ⟨_, _, rfl⟩⟩

/-- An entry of an object under a word. -/
theorem objectEntry_pair {k c : Token} {value : Node} (key : k.isWord = true)
    (colon : c.kind = .mark .colon)
    (one : read n (.assignment true true) tokens = some ([value], rest)) :
    (read n).objectEntry (k :: c :: tokens) =
      some
        ([.branch .pair
            [(Node.leaf .propertyIdentifier k.start k.stop).withField .key,
             .leaf .punctuation c.start c.stop, value.withField .value]],
         rest) := by
  obtain ⟨keyword, kind⟩ := Token.isWord_iff.mp key
  simp [objectEntry, methodModifier_of_colon, propertyName, Token.isWord, signature, parameters,
    typeParameters, Rules.value, kind, colon, one, kindOfMark]

theorem objectEntry_closeBrace (brace : s.kind = .mark .closeBrace) (n : Nat) (rest : List Token) :
    (read n).objectEntry (s :: rest) = none := by
  simp [objectEntry, methodModifier, propertyName, Token.isWord, Token.isIdentifier, brace]

/-- Entries in braces. -/
theorem object_of_reads {o b : Token} (opens : o.kind = .mark .openBrace)
    (entries : Reads (first [mark .comma, (read n).objectEntry]) tokens nodes (b :: rest))
    (closes : b.kind = .mark .closeBrace) :
    (read n).object (o :: tokens) =
      some
        ([.branch .object
            (.leaf .openBrace o.start o.stop :: nodes ++ [.leaf .punctuation b.start b.stop])],
         rest) := by
  have list := entries.many_eq (by simp [objectEntry_closeBrace closes, closes])
  simp [object, opens, list, closes, kindOfMark]

/-- An object literal is a value. -/
theorem read_assignment_of_object {o : Token} (opens : o.kind = .mark .openBrace)
    (object : (read (n + 1)).object (o :: tokens) = some (nodes, s :: rest)) (ends : EndsValue s) :
    read (n + 5) (.assignment true true) (o :: tokens) = some (nodes, s :: rest) := by
  have primary : (read (n + 1)).primary (o :: tokens) = some (nodes, s :: rest) := by
    simp [primary, template, metaProperty, parenthesized, array, opens, object]
  have operand := read_operand_of_primary (by simp [opens]) (by simp [opens]) primary
    ends.endsOperand
  refine read_assignment_of_operand (by simp [BeginsOperand, opens]) ?_ operand ends
  exact arrowFunction_of_no_name (by simp [opens]) (by simp [Token.isIdentifier, opens])

/-! ### Values as statements -/

/-- A value that begins with a name is a statement. -/
theorem read_statement_of_expression {e : Token} {value : Node} (name : t.kind = .word none)
    (no_label : s.kind ≠ .mark .colon)
    (one : read n (.expression true) (t :: s :: tokens) = some ([value], e :: rest))
    (ends : e.kind = .mark .semicolon) :
    read (n + 1) .statement (t :: s :: tokens) =
      some ([.branch .expressionStatement [value, .leaf .semicolon e.start e.stop]], rest) := by
  rw [read_statement_of_plain (by simp [BeginsPlainStatement, name])]
  simp [decoratedStatement, importStatement, exportStatement, ambientDeclaration,
    namespaceStatement, internalModule, declaration, variableList, function, classDeclaration,
    interface, typeAlias, enumeration, moduleDeclaration, labeledStatement, expressionStatement,
    Token.isIdentifier, name, no_label, one, ends]

end ModelGrid.Syntax.Grammar
