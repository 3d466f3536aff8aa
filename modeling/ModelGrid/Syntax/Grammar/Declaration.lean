import ModelGrid.Syntax.Grammar.Expression

/-!
# Declarations

## Main definitions

* `Rules.declaration`: a declaration of values, functions, classes, types or namespaces.
* `Rules.importStatement`, `Rules.exportStatement`: what a file takes from others and offers them.
-/

namespace ModelGrid.Syntax.Rules

open Phrase

/-! ### Values and functions -/

/-- A declared value. -/
def declarator (r : Rules) : Phrase :=
  build .variableDeclarator
    [r .pattern, opt [mark .bang], opt [r.typeAscription],
     opt [mark .assign, role .value r.value]]

/-- Declared values. -/
def variableList (r : Rules) : Phrase :=
  let declarators := separated .comma r.declarator
  first
    [build .variableDeclaration [key .varWord, declarators, semicolon],
     build .lexicalDeclaration
       [first [key .letWord, key .constWord], notAhead (key .enumWord), declarators, semicolon],
     build .lexicalDeclaration
       [opt [key .awaitWord], key .usingWord, sameLine, ahead (name .identifier), declarators,
        semicolon]]

/-- A declared function, with its body or, as one of several forms of it, without. -/
def function (r : Rules) (unnamed : Bool) : Phrase :=
  let called := if unnamed then opt [name .identifier] else name .identifier
  andThen (seq [opt [key .asyncWord, sameLine], key .functionWord]) fun left =>
    first
      [extend .generatorFunctionDeclaration left
         [mark .times, called, r.signature, role .body r.block],
       andThen (seq [emit left, called, r.signature]) fun head =>
         first
           [extend .functionDeclaration head [role .body r.block],
            extend .functionSignature head [opt [mark .times], semicolon]]]

/-! ### Types -/

/-- A declared class; `decorators` stand in front of it. -/
def classDeclaration (r : Rules) (decorators : List Node) (unnamed : Bool) : Phrase :=
  let named := seq [notAhead (key .implementsWord), name .typeIdentifier]
  let called := if unnamed then opt [named] else named
  first
    [build .classDeclaration [emit decorators, key .classWord, called, r.classTail],
     build .abstractClassDeclaration
       [emit decorators, key .abstractWord, sameLine, key .classWord, called, r.classTail]]

/-- A declared interface. -/
def interface (r : Rules) : Phrase :=
  build .interfaceDeclaration
    [key .interfaceWord, sameLine, name .typeIdentifier, opt [r.typeParameters],
     opt [build .extendsTypeClause [key .extendsWord, separated .comma (r .type)]],
     typeMembers .interfaceBody r]

/-- A name for a type. -/
def typeAlias (r : Rules) : Phrase :=
  build .typeAliasDeclaration
    [key .typeWord, sameLine, name .typeIdentifier, opt [r.typeParameters], mark .assign,
     r .type, semicolon]

/-- A declared enumeration. -/
def enumeration (r : Rules) : Phrase :=
  build .enumDeclaration
    [opt [key .constWord], key .enumWord, name .identifier,
     build .enumBody
       [mark .openBrace,
        commaList
          (first
            [build .enumAssignment [r.propertyName, mark .assign, r.value], r.propertyName]),
        mark .closeBrace]]

/-! ### Namespaces -/

/-- A dotted name. -/
def dottedName : Phrase :=
  chain (name .identifier) fun left =>
    extend .nestedIdentifier left [mark .dot, anyWord .propertyIdentifier]

/-- A namespace with its declarations. -/
def internalModule (r : Rules) : Phrase :=
  build .internalModule
    [key .namespaceWord, sameLine, dottedName, role .body r.block]

/-- A module, known by a name or by the text of its path. -/
def moduleDeclaration (r : Rules) : Phrase :=
  build .moduleDeclaration
    [key .moduleWord, sameLine,
     first
       [seq [token .stringLiteral .string, opt [role .body r.block]],
        seq [dottedName, role .body r.block]]]

/-! ### Imports -/

/-- A name of another module's export: as a rule an identifier. -/
def exportName : Phrase :=
  first [anyWord .identifier, token .stringLiteral .string]

/-- An imported name, with the name it goes by here if that is another. -/
def importSpecifier : Phrase :=
  let renamed := seq [role .name exportName, key .asWord, name .identifier]
  let plain := role .name (anyWord .identifier)
  first
    [build .importSpecifier [key .typeWord, renamed],
     build .importSpecifier [renamed],
     build .importSpecifier [key .typeWord, plain],
     build .importSpecifier [plain]]

/-- Imported names in braces. -/
def namedImports : Phrase :=
  build .namedImports [mark .openBrace, commaList importSpecifier, mark .closeBrace]

/-- What is imported: a default, a namespace, or names in braces. -/
def importClause : Phrase :=
  let all := build .namespaceImport [mark .times, key .asWord, name .identifier]
  first
    [build .importClause [all],
     build .importClause [namedImports],
     build .importClause
       [name .identifier, opt [mark .comma, first [all, namedImports]]]]

/-- How an imported file is to be read. -/
def importAttribute (r : Rules) : Phrase :=
  build .importAttribute [first [key .withWord, seq [sameLine, key .assertWord]], r.object]

/-- What a file takes from another. -/
def importStatement (r : Rules) : Phrase :=
  let source := role .source (token .stringLiteral .string)
  let from' := seq [key .fromWord, source]
  let required :=
    build .importRequireClause
      [name .identifier, mark .assign, key .requireWord, mark .openParen, source,
       mark .closeParen]
  andThen (key .importWord) fun left =>
    let whole (clause : Phrase) : Phrase :=
      extend .importStatement left [clause, opt [r.importAttribute], semicolon]
    first
      [whole source,
       whole (seq [key .typeWord, importClause, from']),
       whole (seq [importClause, from']),
       whole (seq [key .typeWord, required]),
       whole required,
       extend .importAlias left
         [opt [key .typeWord], name .identifier, mark .assign, dottedName, semicolon]]

/-! ### Exports -/

/-- An exported name, with the name it goes by elsewhere if that is another. -/
def exportSpecifier : Phrase :=
  let plain := seq [role .name exportName, opt [key .asWord, exportName]]
  first
    [build .exportSpecifier [key .typeWord, plain],
     build .exportSpecifier [plain]]

/-- Exported names in braces. -/
def exportClause : Phrase :=
  build .exportClause [mark .openBrace, commaList exportSpecifier, mark .closeBrace]

/-- What a declaration may be; `decorators` stand in front of it. -/
def declaration (r : Rules) (decorators : List Node) : Phrase :=
  if decorators.isEmpty then
    first
      [r.variableList, r.function false, r.classDeclaration [] false, r.interface, r.typeAlias,
       r.enumeration, r.internalModule, r.moduleDeclaration]
  else r.classDeclaration decorators false

/-- A declaration of what is defined elsewhere. -/
def ambientDeclaration (r : Rules) : Phrase :=
  build .ambientDeclaration
    [key .declareWord, sameLine,
     first
       [seq [key .globalWord, r.block],
        seq [r.declaration [], opt [mark .semicolon]]]]

/-- What a file offers others; `decorators` stand in front of it. -/
def exportStatement (r : Rules) (decorators : List Node) : Phrase :=
  let source := role .source (token .stringLiteral .string)
  let from' := seq [key .fromWord, source, opt [r.importAttribute]]
  andThen (seq [emit decorators, key .exportWord]) fun left =>
    first
      [extend .exportStatement left [opt [key .typeWord], mark .times, from', semicolon],
       extend .exportStatement left
         [opt [key .typeWord],
          build .namespaceExport [mark .times, key .asWord, exportName], from', semicolon],
       extend .exportStatement left [opt [key .typeWord], exportClause, opt [from'], semicolon],
       extend .exportStatement left
         [key .defaultWord,
          andThen (many r.decorator) fun inner =>
            first
              [r.function true,
               r.classDeclaration inner true,
               r.interface,
               seq [emit inner, r (.expression true), semicolon]]],
       extend .exportStatement left [mark .assign, r (.expression true), semicolon],
       extend .exportStatement left
         [key .asWord, key .namespaceWord, name .identifier, semicolon],
       extend .exportStatement left [r.importStatement],
       extend .exportStatement left [r.ambientDeclaration],
       extend .exportStatement left [andThen (many r.decorator) r.declaration]]

end ModelGrid.Syntax.Rules
