import ModelGrid.Syntax.Document

/-!
# Registering a component in a module file

A component is registered by two insertions: its class joins the `declarations` of the first
`@NgModule({...})` decorator, and an import of the class joins the imports of the file.

## Main definitions

* `Addition`: a text inserted at an offset.
* `Registration.metadata?`: the object that the first `@NgModule(...)` decorator is given.
* `Registration.declarationAddition?`, `Registration.importAddition?`: the two insertions.
* `Registration.plan`: both, or none if the class cannot or need not be declared.
-/

namespace ModelGrid.AngularModule

open Syntax

/-- A text to be inserted at a byte offset. -/
structure Addition where
  offset : Nat
  text : String
  deriving DecidableEq, Repr

namespace Registration

/-- Indentation of the class where the declarations had to be laid out anew. -/
def classIndent : List Char := "    ".toList

/-- The quotes that may stand around a name. -/
def isQuote (c : Char) : Bool :=
  c == '\'' || c == '"' || c == '\x60'

/-- A text without the quotes at its two ends. -/
def stripQuotes (text : List Char) : List Char :=
  ((text.dropWhile isQuote).reverse.dropWhile isQuote).reverse

/-! ### The declarations -/

/-- The object that a decorator is given, if it is a call of `NgModule` with one in front. -/
def metadataOf? (file : Document) (place : Place) : Option Place := do
  guard (place.node.kind == .decorator)
  let call ← place.constructs.find? fun child => child.node.kind == .callExpression
  let function ← call.childOf? .function
  guard (file.charsOf function == "NgModule".toList)
  let arguments ← call.childOf? .arguments
  let argument ← arguments.constructs.head?
  guard (argument.node.kind == .object)
  return argument

/-- The object that the first `@NgModule({...})` decorator is given. -/
def metadata? (file : Document) : Option Place :=
  file.places.findSome? (metadataOf? file)

/-- The key of an entry that is a key with a value, without quotes. -/
def keyOf? (file : Document) (property : Place) : Option (List Char) := do
  guard (property.node.kind == .pair)
  let key ← property.childOf? .key
  match key.node.kind with
  | .propertyIdentifier => return file.charsOf key
  | .stringLiteral => return stripQuotes (file.charsOf key)
  | _ => none

/-- The line feed at the front of the text, in either form. -/
def leadingLineFeed? : List Char → Option (List Char × List Char)
  | '\r' :: '\n' :: rest => some (['\r', '\n'], rest)
  | '\n' :: rest => some (['\n'], rest)
  | _ => none

/-- The line feed and the indentation in front of a place that begins a line. -/
def lineStart? (file : Document) (place : Place) : Option (List Char) :=
  (leadingLineFeed? (file.trivia place)).map fun (lineFeed, rest) =>
    lineFeed ++ rest.takeWhile Text.isBlank

/-- The declarations as a property of their own. -/
def newDeclarations (file : Document) (metadata : Place) (className : List Char) : Addition :=
  match metadata.constructs.getLast? with
  | none =>
    { offset := metadata.node.stop - 1
      text := String.ofList
        ("\n  declarations: [\n".toList ++ classIndent ++ className ++ "\n  ]\n".toList) }
  | some last =>
    let text :=
      match lineStart? file last with
      | some separator =>
        let lineFeed := if separator.head? == some '\r' then ['\r', '\n'] else ['\n']
        ',' :: separator ++ "declarations: [".toList ++ lineFeed ++ classIndent ++ className ++
          separator ++ [']']
      | none => ", declarations: [".toList ++ className ++ [']']
    { offset := last.node.stop, text := String.ofList text }

/-- The class as one more element of an array, unless it is one already. -/
def newElement? (file : Document) (array : Place) (className : List Char) : Option Addition :=
  let elements := array.constructs
  if elements.any fun element =>
      element.node.kind == .identifier && file.charsOf element == className then
    none
  else
    match elements.getLast? with
    | none => some { offset := array.node.stop - 1, text := String.ofList className }
    | some last =>
      let separator := ((lineStart? file last).map (',' :: ·)).getD [',', ' ']
      some { offset := last.node.stop, text := String.ofList (separator ++ className) }

/-- The insertion that declares the class; `none` if the class is declared already, or if the
declarations are no array. -/
def declarationAddition? (file : Document) (metadata : Place) (className : List Char) :
    Option Addition :=
  match metadata.constructs.find? fun property =>
      keyOf? file property == some "declarations".toList with
  | none => some (newDeclarations file metadata className)
  | some property =>
    match property.childOf? .value with
    | none => none
    | some value =>
      if value.node.kind == .array then newElement? file value className else none

/-! ### The import -/

/-- An import of names from a module. -/
structure Import where
  source : Place
  /-- The names in braces. -/
  named : Option Place
  /-- The module's path, without quotes. -/
  path : List Char

/-- The import that a statement is. -/
def importOf? (file : Document) (statement : Place) : Option Import := do
  guard (statement.node.kind == .importStatement)
  let source ← statement.childOf? .source
  let clause := statement.constructs.find? fun child => child.node.kind == .importClause
  let named := clause.bind fun clause =>
    clause.constructs.find? fun child => child.node.kind == .namedImports
  return { source, named, path := stripQuotes (file.charsOf source) }

/-- The imports at the top level of a file, in order. -/
def imports (file : Document) : List Import :=
  (Place.root file.root).constructs.filterMap (importOf? file)

/-- Whether one of the names in braces is the symbol, under whatever name it goes here. -/
def importsName (file : Document) (group : Place) (symbol : List Char) : Bool :=
  group.constructs.any fun specifier =>
    (specifier.childOf? .name).map file.charsOf == some symbol

/-- The symbol as one more name in braces, unless it is there. -/
def newSpecifier? (file : Document) (group : Place) (symbol : List Char) : Option Addition :=
  if importsName file group symbol then none
  else
    match group.constructs.getLast? with
    | some last =>
      some { offset := last.node.stop, text := String.ofList ([',', ' '] ++ symbol) }
    | none =>
      some { offset := group.node.start + 1, text := String.ofList ([' '] ++ symbol ++ [' ']) }

/-- The insertion that imports the symbol: into the first import from the path if it has names in
braces, or else as a statement behind the last import or at the top of the file. -/
def importAddition? (file : Document) (symbol path : List Char) : Option Addition :=
  let all := imports file
  match all.find? fun found => found.path == path with
  | some existing => existing.named.bind fun group => newSpecifier? file group symbol
  | none =>
    let statement :=
      "import \x7b ".toList ++ symbol ++ " \x7d from '".toList ++ path ++ ['\'']
    match all.getLast? with
    | some last =>
      some { offset := last.source.node.stop, text := String.ofList (";\n".toList ++ statement) }
    | none => some { offset := 0, text := String.ofList (statement ++ ";\n".toList) }

/-- The insertions that register a class, that of the declaration first.  There is none if the
file has no `@NgModule({...})`, declares the class already, or has declarations that are no
array. -/
def plan (file : Document) (className importPath : String) : List Addition :=
  match metadata? file with
  | none => []
  | some metadata =>
    match declarationAddition? file metadata className.toList with
    | none => []
    | some declaration =>
      declaration :: (importAddition? file className.toList importPath.toList).toList

end Registration

end ModelGrid.AngularModule
