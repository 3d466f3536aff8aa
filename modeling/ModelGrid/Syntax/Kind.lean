/-!
# Kinds of syntax nodes

A named node is a construct of the language; the other nodes are the keywords and marks that hold
a construct together.

## Main definitions

* `Syntax.Kind`: the kinds.
* `Kind.name?`: the conventional name of a named kind, `none` for keywords and marks.
* `Syntax.Field`: the role of a child in its parent, where a reader of the tree asks for it.
-/

namespace ModelGrid.Syntax

/-- The kind of a syntax node. -/
inductive Kind
  -- keywords, marks and what is no construct
  | returnKeyword | keyword | openBrace | semicolon | punctuation
  | comment | error
  -- leaves
  | identifier | propertyIdentifier | privatePropertyIdentifier | shorthandPropertyIdentifier
  | shorthandPropertyIdentifierPattern | typeIdentifier | statementIdentifier
  | numberLiteral | stringLiteral | regexLiteral | thisExpression | superExpression | trueLiteral
  | falseLiteral | nullLiteral | undefinedLiteral | importCallee
  | interpreterLine | templateChars
  -- the file and its statements
  | program | emptyStatement | expressionStatement | statementBlock | ifStatement | elseClause
  | forStatement | forInStatement | whileStatement | doStatement | switchStatement | switchBody
  | switchCase | switchDefault | tryStatement | catchClause | finallyClause | withStatement
  | labeledStatement | breakStatement | continueStatement | returnStatement | throwStatement
  | debuggerStatement
  -- declarations
  | lexicalDeclaration | variableDeclaration | variableDeclarator | functionDeclaration
  | generatorFunctionDeclaration | functionSignature | classDeclaration
  | abstractClassDeclaration | interfaceDeclaration | typeAliasDeclaration | enumDeclaration
  | enumBody | enumAssignment | internalModule | moduleDeclaration | ambientDeclaration
  -- imports and exports
  | importStatement | importClause | namedImports | importSpecifier | namespaceImport
  | importRequireClause | importAttribute | importAlias | exportStatement | exportClause
  | exportSpecifier | namespaceExport
  -- classes
  | classExpression | classBody | classHeritage | extendsClause | implementsClause
  | extendsTypeClause | methodDefinition | methodSignature | abstractMethodSignature
  | publicFieldDefinition | classStaticBlock | decorator | accessibilityModifier
  | overrideModifier
  -- functions and patterns
  | functionExpression | generatorFunction | arrowFunction | formalParameters
  | requiredParameter | optionalParameter | objectPattern | arrayPattern | restPattern
  | pairPattern | assignmentPattern | objectAssignmentPattern
  -- expressions
  | sequenceExpression | assignmentExpression | augmentedAssignmentExpression
  | ternaryExpression | binaryExpression | unaryExpression | updateExpression
  | awaitExpression | yieldExpression | asExpression | satisfiesExpression | typeAssertion
  | nonNullExpression | callExpression | newExpression | memberExpression
  | subscriptExpression | instantiationExpression | metaProperty | optionalChain
  | parenthesizedExpression | arguments | spreadElement | array | object | pair
  | computedPropertyName | templateString | templateSubstitution
  -- types
  | typeAscription | typePredicateAscription | assertsAscription | typePredicate | asserts
  | typeParameters | typeParameter | constraint | defaultType | typeArguments
  | predefinedType | literalType | thisType | genericType | nestedIdentifier
  | nestedTypeIdentifier | typeQuery | indexTypeQuery | readonlyType | inferType | arrayType
  | tupleType | optionalType | restType | lookupType | unionType | intersectionType
  | conditionalType | functionType | constructorType | parenthesizedType | objectType
  | interfaceBody | propertySignature | callSignature | constructSignature | indexSignature
  | mappedTypeClause | templateLiteralType | templateType
  deriving DecidableEq, Repr

namespace Kind

/-- The conventional name of a named kind.  Keywords and marks have none. -/
def name? : Kind → Option String
  | returnKeyword | keyword | openBrace | semicolon | punctuation => none
  | comment => "comment"
  | error => "ERROR"
  | identifier => "identifier"
  | propertyIdentifier => "property_identifier"
  | privatePropertyIdentifier => "private_property_identifier"
  | shorthandPropertyIdentifier => "shorthand_property_identifier"
  | shorthandPropertyIdentifierPattern => "shorthand_property_identifier_pattern"
  | typeIdentifier => "type_identifier"
  | statementIdentifier => "statement_identifier"
  | numberLiteral => "number"
  | stringLiteral => "string"
  | regexLiteral => "regex"
  | thisExpression => "this"
  | superExpression => "super"
  | trueLiteral => "true"
  | falseLiteral => "false"
  | nullLiteral => "null"
  | undefinedLiteral => "undefined"
  | importCallee => "import"
  | interpreterLine => "hash_bang_line"
  | templateChars => "string_fragment"
  | program => "program"
  | emptyStatement => "empty_statement"
  | expressionStatement => "expression_statement"
  | statementBlock => "statement_block"
  | ifStatement => "if_statement"
  | elseClause => "else_clause"
  | forStatement => "for_statement"
  | forInStatement => "for_in_statement"
  | whileStatement => "while_statement"
  | doStatement => "do_statement"
  | switchStatement => "switch_statement"
  | switchBody => "switch_body"
  | switchCase => "switch_case"
  | switchDefault => "switch_default"
  | tryStatement => "try_statement"
  | catchClause => "catch_clause"
  | finallyClause => "finally_clause"
  | withStatement => "with_statement"
  | labeledStatement => "labeled_statement"
  | breakStatement => "break_statement"
  | continueStatement => "continue_statement"
  | returnStatement => "return_statement"
  | throwStatement => "throw_statement"
  | debuggerStatement => "debugger_statement"
  | lexicalDeclaration => "lexical_declaration"
  | variableDeclaration => "variable_declaration"
  | variableDeclarator => "variable_declarator"
  | functionDeclaration => "function_declaration"
  | generatorFunctionDeclaration => "generator_function_declaration"
  | functionSignature => "function_signature"
  | classDeclaration => "class_declaration"
  | abstractClassDeclaration => "abstract_class_declaration"
  | interfaceDeclaration => "interface_declaration"
  | typeAliasDeclaration => "type_alias_declaration"
  | enumDeclaration => "enum_declaration"
  | enumBody => "enum_body"
  | enumAssignment => "enum_assignment"
  | internalModule => "internal_module"
  | moduleDeclaration => "module"
  | ambientDeclaration => "ambient_declaration"
  | importStatement => "import_statement"
  | importClause => "import_clause"
  | namedImports => "named_imports"
  | importSpecifier => "import_specifier"
  | namespaceImport => "namespace_import"
  | importRequireClause => "import_require_clause"
  | importAttribute => "import_attribute"
  | importAlias => "import_alias"
  | exportStatement => "export_statement"
  | exportClause => "export_clause"
  | exportSpecifier => "export_specifier"
  | namespaceExport => "namespace_export"
  | classExpression => "class"
  | classBody => "class_body"
  | classHeritage => "class_heritage"
  | extendsClause => "extends_clause"
  | implementsClause => "implements_clause"
  | extendsTypeClause => "extends_type_clause"
  | methodDefinition => "method_definition"
  | methodSignature => "method_signature"
  | abstractMethodSignature => "abstract_method_signature"
  | publicFieldDefinition => "public_field_definition"
  | classStaticBlock => "class_static_block"
  | decorator => "decorator"
  | accessibilityModifier => "accessibility_modifier"
  | overrideModifier => "override_modifier"
  | functionExpression => "function_expression"
  | generatorFunction => "generator_function"
  | arrowFunction => "arrow_function"
  | formalParameters => "formal_parameters"
  | requiredParameter => "required_parameter"
  | optionalParameter => "optional_parameter"
  | objectPattern => "object_pattern"
  | arrayPattern => "array_pattern"
  | restPattern => "rest_pattern"
  | pairPattern => "pair_pattern"
  | assignmentPattern => "assignment_pattern"
  | objectAssignmentPattern => "object_assignment_pattern"
  | sequenceExpression => "sequence_expression"
  | assignmentExpression => "assignment_expression"
  | augmentedAssignmentExpression => "augmented_assignment_expression"
  | ternaryExpression => "ternary_expression"
  | binaryExpression => "binary_expression"
  | unaryExpression => "unary_expression"
  | updateExpression => "update_expression"
  | awaitExpression => "await_expression"
  | yieldExpression => "yield_expression"
  | asExpression => "as_expression"
  | satisfiesExpression => "satisfies_expression"
  | typeAssertion => "type_assertion"
  | nonNullExpression => "non_null_expression"
  | callExpression => "call_expression"
  | newExpression => "new_expression"
  | memberExpression => "member_expression"
  | subscriptExpression => "subscript_expression"
  | instantiationExpression => "instantiation_expression"
  | metaProperty => "meta_property"
  | optionalChain => "optional_chain"
  | parenthesizedExpression => "parenthesized_expression"
  | arguments => "arguments"
  | spreadElement => "spread_element"
  | array => "array"
  | object => "object"
  | pair => "pair"
  | computedPropertyName => "computed_property_name"
  | templateString => "template_string"
  | templateSubstitution => "template_substitution"
  | typeAscription => "type_annotation"
  | typePredicateAscription => "type_predicate_annotation"
  | assertsAscription => "asserts_annotation"
  | typePredicate => "type_predicate"
  | asserts => "asserts"
  | typeParameters => "type_parameters"
  | typeParameter => "type_parameter"
  | constraint => "constraint"
  | defaultType => "default_type"
  | typeArguments => "type_arguments"
  | predefinedType => "predefined_type"
  | literalType => "literal_type"
  | thisType => "this_type"
  | genericType => "generic_type"
  | nestedIdentifier => "nested_identifier"
  | nestedTypeIdentifier => "nested_type_identifier"
  | typeQuery => "type_query"
  | indexTypeQuery => "index_type_query"
  | readonlyType => "readonly_type"
  | inferType => "infer_type"
  | arrayType => "array_type"
  | tupleType => "tuple_type"
  | optionalType => "optional_type"
  | restType => "rest_type"
  | lookupType => "lookup_type"
  | unionType => "union_type"
  | intersectionType => "intersection_type"
  | conditionalType => "conditional_type"
  | functionType => "function_type"
  | constructorType => "constructor_type"
  | parenthesizedType => "parenthesized_type"
  | objectType => "object_type"
  | interfaceBody => "interface_body"
  | propertySignature => "property_signature"
  | callSignature => "call_signature"
  | constructSignature => "construct_signature"
  | indexSignature => "index_signature"
  | mappedTypeClause => "mapped_type_clause"
  | templateLiteralType => "template_literal_type"
  | templateType => "template_type"

/-- Whether nodes of the kind are constructs of the language. -/
def isNamed (kind : Kind) : Bool :=
  kind.name?.isSome

end Kind

/-- The role of a child in its parent. -/
inductive Field
  | body | source | function | arguments | key | value | name
  deriving DecidableEq, Repr

end ModelGrid.Syntax
