import ModelGrid.Proofs.Syntax.Keeping

/-!
# What the grammar keeps

What tokens and the nodes made of them keep (`Phrase.Keeps`) is kept by every rule of the grammar, so
by what it reads of any goal, however deep goals stand inside one another.

Most rules are put together from phrases that are known to keep it, and there is nothing to be said
about them.  The others look at tokens or at nodes themselves: the signs that are made of several
tokens, the values that become patterns, and the rules that are recursions of their own.

## Main results

* `Grammar.keeps_read`: what is read of a goal.
* `Grammar.forall_mem_children_program`: the nodes at the top of the tree of a file.
-/

set_option synthInstance.maxSize 1000

namespace ModelGrid.Syntax

open Phrase

namespace Rules

variable {T : Token → Prop} {N : Node → Prop} [builds : Builds T N] {left : List Node}

/-! ### Without goals -/

instance keeps_parameterModifier : Keeps T N left parameterModifier := by
  unfold parameterModifier
  infer_instance

instance keeps_predefinedType : Keeps T N left predefinedType := by
  unfold predefinedType
  infer_instance

instance keeps_literalType : Keeps T N left literalType := by unfold literalType; infer_instance

instance keeps_typeMemberModifier : Keeps T N left typeMemberModifier := by
  unfold typeMemberModifier
  infer_instance

instance keeps_memberModifier : Keeps T N left memberModifier := by
  unfold memberModifier
  infer_instance

instance keeps_methodModifier : Keeps T N left methodModifier := by
  unfold methodModifier
  infer_instance

instance keeps_metaProperty : Keeps T N left metaProperty := by unfold metaProperty; infer_instance

instance keeps_memberName : Keeps T N left memberName := by unfold memberName; infer_instance

instance keeps_dottedName : Keeps T N left dottedName := by unfold dottedName; infer_instance

instance keeps_exportName : Keeps T N left exportName := by unfold exportName; infer_instance

instance keeps_importSpecifier : Keeps T N left importSpecifier := by
  unfold importSpecifier
  infer_instance

instance keeps_namedImports : Keeps T N left namedImports := by unfold namedImports; infer_instance

instance keeps_importClause : Keeps T N left importClause := by unfold importClause; infer_instance

instance keeps_exportSpecifier : Keeps T N left exportSpecifier := by
  unfold exportSpecifier
  infer_instance

instance keeps_exportClause : Keeps T N left exportClause := by unfold exportClause; infer_instance

variable {r : Rules} [goals : ∀ left goal, Keeps T N left (r goal)]

/-! ### Goals -/

instance keeps_value : Keeps T N left r.value := by unfold value; infer_instance

instance keeps_parenthesized : Keeps T N left r.parenthesized := by
  unfold parenthesized
  infer_instance

instance keeps_listEntry : Keeps T N left r.listEntry := by unfold listEntry; infer_instance

instance keeps_arguments : Keeps T N left r.arguments := by unfold arguments; infer_instance

instance keeps_block : Keeps T N left r.block := by unfold block; infer_instance

instance keeps_template {whole substitution : Kind} [IsFalse whole.isImport]
    [IsFalse substitution.isImport] {inner : Phrase} [Keeps T N left inner] :
    Keeps T N left (template whole substitution inner) := by
  unfold template
  infer_instance

instance keeps_propertyName : Keeps T N left r.propertyName := by
  unfold propertyName
  infer_instance

/-! ### Types -/

instance keeps_typeAscription : Keeps T N left r.typeAscription := by
  unfold typeAscription
  infer_instance

instance keeps_typePredicate : Keeps T N left r.typePredicate := by
  unfold typePredicate
  infer_instance

instance keeps_asserts : Keeps T N left r.asserts := by unfold asserts; infer_instance

instance keeps_resultType : Keeps T N left r.resultType := by unfold resultType; infer_instance

instance keeps_returnType : Keeps T N left r.returnType := by unfold returnType; infer_instance

instance keeps_typeArguments : Keeps T N left r.typeArguments := by
  unfold typeArguments
  infer_instance

instance keeps_typeParameter : Keeps T N left r.typeParameter := by
  unfold typeParameter
  infer_instance

instance keeps_typeParameters : Keeps T N left r.typeParameters := by
  unfold typeParameters
  infer_instance

instance keeps_decorator : Keeps T N left r.decorator := by unfold decorator; infer_instance

instance keeps_parameter : Keeps T N left r.parameter := by unfold parameter; infer_instance

instance keeps_parameters : Keeps T N left r.parameters := by unfold parameters; infer_instance

instance keeps_signature : Keeps T N left r.signature := by unfold signature; infer_instance

instance keeps_functionType : Keeps T N left r.functionType := by
  unfold functionType
  infer_instance

instance keeps_constructorType : Keeps T N left r.constructorType := by
  unfold constructorType
  infer_instance

instance keeps_typeReference : Keeps T N left r.typeReference := by
  unfold typeReference
  infer_instance

instance keeps_importType : Keeps T N left r.importType := by unfold importType; infer_instance

instance keeps_typeQuery : Keeps T N left r.typeQuery := by unfold typeQuery; infer_instance

instance keeps_tupleMember : Keeps T N left r.tupleMember := by unfold tupleMember; infer_instance

instance keeps_mappedModifier {p : Phrase} [Keeps T N left p] :
    Keeps T N left (mappedModifier p) := by
  unfold mappedModifier
  infer_instance

instance keeps_indexSignature : Keeps T N left r.indexSignature := by
  unfold indexSignature
  infer_instance

instance keeps_typeMember : Keeps T N left r.typeMember := by unfold typeMember; infer_instance

instance keeps_typeMembers {kind : Kind} [IsFalse kind.isImport] :
    Keeps T N left (typeMembers kind r) := by unfold typeMembers; infer_instance

instance keeps_primaryType : Keeps T N left r.primaryType := by unfold primaryType; infer_instance

instance keeps_postfixType : Keeps T N left r.postfixType := by unfold postfixType; infer_instance

instance keeps_operatorType {fuel : Nat} : Keeps T N left (operatorType r fuel) := by
  induction fuel with
  | zero => unfold operatorType; infer_instance
  | succ fuel _ => unfold operatorType; infer_instance

instance keeps_unionRule : Keeps T N left r.unionRule := by unfold unionRule; infer_instance

instance keeps_typeRule : Keeps T N left r.typeRule := by unfold typeRule; infer_instance

/-! ### Patterns -/

instance keeps_defaulted : Keeps T N left r.defaulted := by unfold defaulted; infer_instance

instance keeps_restPattern : Keeps T N left r.restPattern := by unfold restPattern; infer_instance

instance keeps_objectPatternEntry : Keeps T N left r.objectPatternEntry := by
  unfold objectPatternEntry
  infer_instance

instance keeps_patternRule : Keeps T N left r.patternRule := by unfold patternRule; infer_instance

/-! ### Classes -/

instance keeps_namedMember : Keeps T N left r.namedMember := by unfold namedMember; infer_instance

instance keeps_classMember : Keeps T N left r.classMember := by unfold classMember; infer_instance

instance keeps_classBody : Keeps T N left r.classBody := by unfold classBody; infer_instance

instance keeps_extendsClause : Keeps T N left r.extendsClause := by
  unfold extendsClause
  infer_instance

instance keeps_implementsClause : Keeps T N left r.implementsClause := by
  unfold implementsClause
  infer_instance

instance keeps_classHeritage : Keeps T N left r.classHeritage := by
  unfold classHeritage
  infer_instance

instance keeps_classTail : Keeps T N left r.classTail := by unfold classTail; infer_instance

instance keeps_classExpression : Keeps T N left r.classExpression := by
  unfold classExpression
  infer_instance

/-! ### Expressions -/

instance keeps_array : Keeps T N left r.array := by unfold array; infer_instance

instance keeps_objectEntry : Keeps T N left r.objectEntry := by unfold objectEntry; infer_instance

instance keeps_object : Keeps T N left r.object := by unfold object; infer_instance

instance keeps_functionExpression : Keeps T N left r.functionExpression := by
  unfold functionExpression
  infer_instance

instance keeps_primary : Keeps T N left r.primary := by unfold primary; infer_instance

instance keeps_memberSuffix : Keeps T N left (r.memberSuffix left) := by
  unfold memberSuffix
  infer_instance

instance keeps_operandSuffix : Keeps T N left (r.operandSuffix left) := by
  unfold operandSuffix
  infer_instance

instance keeps_constructionRule : Keeps T N left r.constructionRule := by
  unfold constructionRule
  infer_instance

instance keeps_operandRule : Keeps T N left r.operandRule := by unfold operandRule; infer_instance

instance keeps_unaryRule : Keeps T N left r.unaryRule := by unfold unaryRule; infer_instance

/-- A sign that begins with a `>` goes to its last token. -/
theorem greaterSign?_spec {tokens rest : List Token} {operator : Option BinaryOperator} {sign : Node}
    (ok : ∀ t ∈ tokens, T t) (read : greaterSign? tokens = some (operator, sign, rest)) :
    N sign ∧ ∀ t ∈ rest, T t := by
  have run (fuel : Nat) : ∀ (last : Token) (rest : List Token), T last → (∀ t ∈ rest, T t) →
      T (greaterRun fuel last rest).2.2.1 ∧ ∀ t ∈ (greaterRun fuel last rest).2.2.2, T t := by
    induction fuel with
    | zero => exact fun last rest last_ok ok => ⟨last_ok, ok⟩
    | succ fuel ih =>
      intro last rest last_ok ok
      cases rest with
      | nil => exact ⟨last_ok, ok⟩
      | cons t rest =>
        obtain ⟨t_ok, rest_ok⟩ := List.forall_mem_cons.mp ok
        rw [greaterRun]
        split
        next => exact ih t rest t_ok rest_ok
        next =>
          split
          next => exact ⟨t_ok, rest_ok⟩
          next => exact ⟨last_ok, ok⟩
  cases tokens with
  | nil => cases read
  | cons t tokens =>
    obtain ⟨t_ok, tokens_ok⟩ := List.forall_mem_cons.mp ok
    obtain ⟨final_ok, rest_ok⟩ := run 3 t tokens t_ok tokens_ok
    rw [greaterSign?] at read
    split at read
    next =>
      cases read
      exact ⟨builds.sign _ _ t_ok final_ok, rest_ok⟩
    next => cases read

/-- The sign of an operator is made of the tokens in front of those that are left. -/
theorem binaryOperator?_spec {inOperator : Bool} {tokens rest : List Token}
    {operator : BinaryOperator} {sign : List Node} (ok : ∀ t ∈ tokens, T t)
    (read : binaryOperator? inOperator tokens = some (operator, sign, rest)) :
    (∀ n ∈ sign, N n) ∧ ∀ t ∈ rest, T t := by
  cases tokens with
  | nil => cases read
  | cons t tokens =>
    obtain ⟨t_ok, tokens_ok⟩ := List.forall_mem_cons.mp ok
    have single (kind : Kind) (other : kind.isImport = false) :
        ∀ n ∈ [Node.leaf kind t.start t.stop], N n :=
      List.forall_mem_singleton.mpr (builds.leaf kind t other t_ok)
    rw [binaryOperator?] at read
    split at read
    next =>
      split at read
      next found =>
        cases read
        obtain ⟨sign_ok, rest_ok⟩ := greaterSign?_spec (N := N) ok found
        exact ⟨List.forall_mem_singleton.mpr sign_ok, rest_ok⟩
      next => cases read
    next =>
      obtain ⟨_, -, eq⟩ := Option.map_eq_some_iff.mp read
      cases eq
      exact ⟨single .punctuation rfl, tokens_ok⟩
    next =>
      cases read
      exact ⟨single .keyword rfl, tokens_ok⟩
    next =>
      split at read
      next =>
        cases read
        exact ⟨single .keyword rfl, tokens_ok⟩
      next => cases read
    next => cases read

instance keeps_binarySuffix {level : Nat} {inOperator : Bool} :
    Keeps T N left (r.binarySuffix level inOperator left) := by
  have binary : Keeps T N left fun tokens =>
      match binaryOperator? inOperator tokens with
      | none => none
      | some (operator, sign, rest) =>
        if operator.level < level then none
        else
          let tighter := if operator.toTheRight then operator.level else operator.level + 1
          extend .binaryExpression left [emit sign, r (.binary tighter inOperator)] rest := by
    refine ⟨fun all tokens nodes rest ok read => ?_⟩
    split at read
    next => cases read
    next operator sign after found =>
      obtain ⟨sign_ok, after_ok⟩ := binaryOperator?_spec (N := N) ok found
      have sign_kept : Keeps T N left (emit sign) :=
        ⟨fun _ _ _ _ kept fits => by cases fits; exact ⟨sign_ok, kept⟩⟩
      split at read
      next => cases read
      next =>
        exact (inferInstance : Keeps T N left (extend .binaryExpression left
          [emit sign, r (.binary _ inOperator)])).keeps all _ _ _ after_ok read
  unfold binarySuffix
  infer_instance

instance keeps_binaryRule {level : Nat} {inOperator : Bool} :
    Keeps T N left (r.binaryRule level inOperator) := by
  unfold binaryRule
  infer_instance

instance keeps_conditional {inOperator typedArrow : Bool} :
    Keeps T N left (r.conditional inOperator typedArrow) := by
  unfold conditional
  infer_instance

instance keeps_arrowFunction {inOperator typedArrow : Bool} :
    Keeps T N left (r.arrowFunction inOperator typedArrow) := by
  unfold arrowFunction
  refine keeps_map_map fun n n_ok => ?_
  split
  · exact n_ok
  · exact builds.asError n n_ok

instance keeps_yieldExpression {inOperator typedArrow : Bool} :
    Keeps T N left (r.yieldExpression inOperator typedArrow) := by
  unfold yieldExpression
  infer_instance

instance keeps_augmentedAssign : Keeps T N left augmentedAssign := by
  have sign : Keeps T N left fun tokens =>
      match greaterSign? tokens with
      | some (none, node, rest) => some ([node], rest)
      | _ => none := by
    refine ⟨fun _ tokens nodes rest ok read => ?_⟩
    split at read
    next node after found =>
      cases read
      obtain ⟨node_ok, rest_ok⟩ := greaterSign?_spec (N := N) ok found
      exact ⟨List.forall_mem_singleton.mpr node_ok, rest_ok⟩
    next => cases read
  unfold augmentedAssign
  infer_instance

instance keeps_assignmentRule {inOperator typedArrow : Bool} :
    Keeps T N left (r.assignmentRule inOperator typedArrow) := by
  unfold assignmentRule
  infer_instance

instance keeps_expressionRule {inOperator : Bool} : Keeps T N left (r.expressionRule inOperator) := by
  unfold expressionRule
  infer_instance

/-! ### Declarations -/

instance keeps_declarator : Keeps T N left r.declarator := by unfold declarator; infer_instance

instance keeps_variableList : Keeps T N left r.variableList := by
  unfold variableList
  infer_instance

instance keeps_function {unnamed : Bool} : Keeps T N left (r.function unnamed) := by
  unfold function
  infer_instance

instance keeps_classDeclaration {decorators : List Node} {unnamed : Bool}
    [Keeps T N left (emit decorators)] :
    Keeps T N left (r.classDeclaration decorators unnamed) := by
  unfold classDeclaration
  infer_instance

instance keeps_interface : Keeps T N left r.interface := by unfold interface; infer_instance

instance keeps_typeAlias : Keeps T N left r.typeAlias := by unfold typeAlias; infer_instance

instance keeps_enumeration : Keeps T N left r.enumeration := by unfold enumeration; infer_instance

instance keeps_internalModule : Keeps T N left r.internalModule := by
  unfold internalModule
  infer_instance

instance keeps_moduleDeclaration : Keeps T N left r.moduleDeclaration := by
  unfold moduleDeclaration
  infer_instance

instance keeps_importAttribute : Keeps T N left r.importAttribute := by
  unfold importAttribute
  infer_instance

/-- The rule of imports keeps the properties if its nodes may be made like others. -/
theorem buildsImports_of_branch
    (branch : ∀ nodes, (∀ n ∈ nodes, N n) → N (.branch .importStatement nodes)) :
    BuildsImports T N where
  importStatement r goals left := by
    have whole {given : List Node} {ps : List Phrase} [KeepsAll T N given ps] :
        Keeps T N given (extend .importStatement given ps) :=
      keeps_map fun ns all => List.forall_mem_singleton.mpr (branch ns all)
    unfold Rules.importStatement
    infer_instance

variable [imports : BuildsImports T N]

instance keeps_importStatement : Keeps T N left r.importStatement :=
  imports.importStatement r goals left

instance keeps_declaration {decorators : List Node} [Keeps T N left (emit decorators)] :
    Keeps T N left (r.declaration decorators) := by
  unfold declaration
  infer_instance

instance keeps_ambientDeclaration : Keeps T N left r.ambientDeclaration := by
  unfold ambientDeclaration
  infer_instance

instance keeps_exportStatement {decorators : List Node} [Keeps T N left (emit decorators)] :
    Keeps T N left (r.exportStatement decorators) := by
  unfold exportStatement
  infer_instance

/-! ### Statements -/

instance keeps_expressionStatement : Keeps T N left r.expressionStatement := by
  unfold expressionStatement
  infer_instance

instance keeps_ifStatement : Keeps T N left r.ifStatement := by unfold ifStatement; infer_instance

instance keeps_forInStatement : Keeps T N left r.forInStatement := by
  unfold forInStatement
  infer_instance

instance keeps_forStatement : Keeps T N left r.forStatement := by
  unfold forStatement
  infer_instance

instance keeps_whileStatement : Keeps T N left r.whileStatement := by
  unfold whileStatement
  infer_instance

instance keeps_doStatement : Keeps T N left r.doStatement := by unfold doStatement; infer_instance

instance keeps_switchStatement : Keeps T N left r.switchStatement := by
  unfold switchStatement
  infer_instance

instance keeps_tryStatement : Keeps T N left r.tryStatement := by
  unfold tryStatement
  infer_instance

instance keeps_labeledStatement : Keeps T N left r.labeledStatement := by
  unfold labeledStatement
  infer_instance

instance keeps_jump {kind : Kind} [IsFalse kind.isImport] {keyword : Keyword} :
    Keeps T N left (jump kind keyword) := by unfold jump; infer_instance

instance keeps_namespaceStatement : Keeps T N left r.namespaceStatement := by
  unfold namespaceStatement
  infer_instance

instance keeps_decoratedStatement : Keeps T N left r.decoratedStatement := by
  unfold decoratedStatement
  infer_instance

instance keeps_statementRule : Keeps T N left r.statementRule := by
  unfold statementRule
  infer_instance

end Rules

namespace Grammar

variable {T : Token → Prop} {N : Node → Prop} [Builds T N] [BuildsImports T N]

theorem keeps_rule {r : Rules} (goals : ∀ left goal, Keeps T N left (r goal)) (left : List Node)
    (goal : Goal) : Keeps T N left (rule r goal) := by
  cases goal <;> unfold rule <;> infer_instance

/-- **What is read of a goal** keeps the properties, however deep the goals in it are. -/
theorem keeps_read (fuel : Nat) (left : List Node) (goal : Goal) :
    Keeps T N left (read fuel goal) := by
  induction fuel generalizing left goal with
  | zero => exact keeps_fail
  | succ fuel ih => exact keeps_rule ih left goal

/-- What is read at the top of a file keeps the properties. -/
theorem keeps_many_statements (fuel : Nat) (left : List Node) :
    Keeps T N left (many (first [read fuel .statement, (read fuel).decorator, stray])) := by
  have goals := keeps_read (T := T) (N := N) fuel
  infer_instance

/-- **The nodes at the top of the tree of a file** have the property if the tokens have theirs. -/
theorem forall_mem_children_program {tokens : List Token} (all : ∀ t ∈ tokens, T t) :
    ∀ n ∈ (program tokens).children, N n := by
  rw [program]
  split
  next nodes rest found =>
    have := keeps_many_statements (T := T) (N := N) (goalsPerToken * (tokens.length + 1))
    have whole : Keeps T N [] (seq [opt [token .interpreterLine .interpreterLine],
        many (first [read (goalsPerToken * (tokens.length + 1)) .statement,
          (read (goalsPerToken * (tokens.length + 1))).decorator, stray])]) := inferInstance
    exact (whole.keeps (List.forall_mem_nil _) _ _ _ all found).1
  next => exact List.forall_mem_nil _

end Grammar

end ModelGrid.Syntax
