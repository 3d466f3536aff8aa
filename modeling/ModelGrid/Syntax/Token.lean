/-!
# Tokens of TypeScript

The vocabulary that the token scanner produces and the grammar consumes.

## Main definitions

* `Syntax.Keyword`: the words that the grammar gives a meaning, reserved or contextual.
* `Syntax.Punctuator`: the marks.  A `>` is always a token of its own; the grammar joins adjacent
  ones into `>>`, `>=` and the like where an operator may stand.
* `Syntax.Token`: a classified stretch of the text, by byte offsets.
-/

namespace ModelGrid.Syntax

/-- A word with a meaning in the grammar. -/
inductive Keyword
  | abstractWord | accessorWord | anyWord | asWord | assertWord | assertsWord | asyncWord
  | awaitWord | bigintWord | booleanWord | breakWord | caseWord | catchWord | classWord | constWord
  | constructorWord | continueWord | debuggerWord | declareWord | defaultWord | deleteWord | doWord
  | elseWord | enumWord | exportWord | extendsWord | falseWord | finallyWord | forWord | fromWord
  | functionWord | getWord | globalWord | ifWord | implementsWord | importWord | inWord | inferWord
  | instanceofWord | interfaceWord | isWord | keyofWord | letWord | metaWord | moduleWord
  | namespaceWord | neverWord | newWord | nullWord | numberWord | objectWord | ofWord
  | overrideWord | privateWord | protectedWord | publicWord | readonlyWord | requireWord
  | returnWord | satisfiesWord | setWord | staticWord | stringWord | superWord | switchWord
  | symbolWord | targetWord | thisWord | throwWord | trueWord | tryWord | typeWord | typeofWord
  | undefinedWord | uniqueWord | unknownWord | usingWord | varWord | voidWord | whileWord
  | withWord | yieldWord
  deriving DecidableEq, Repr

namespace Keyword

/-- Every keyword with its spelling. -/
def spellings : List (Keyword × String) :=
  [(abstractWord, "abstract"), (accessorWord, "accessor"), (anyWord, "any"), (asWord, "as"),
   (assertWord, "assert"), (assertsWord, "asserts"), (asyncWord, "async"), (awaitWord, "await"),
   (bigintWord, "bigint"), (booleanWord, "boolean"), (breakWord, "break"), (caseWord, "case"),
   (catchWord, "catch"), (classWord, "class"), (constWord, "const"),
   (constructorWord, "constructor"), (continueWord, "continue"), (debuggerWord, "debugger"),
   (declareWord, "declare"), (defaultWord, "default"), (deleteWord, "delete"), (doWord, "do"),
   (elseWord, "else"), (enumWord, "enum"), (exportWord, "export"), (extendsWord, "extends"),
   (falseWord, "false"), (finallyWord, "finally"), (forWord, "for"), (fromWord, "from"),
   (functionWord, "function"), (getWord, "get"), (globalWord, "global"), (ifWord, "if"),
   (implementsWord, "implements"), (importWord, "import"), (inWord, "in"), (inferWord, "infer"),
   (instanceofWord, "instanceof"), (interfaceWord, "interface"), (isWord, "is"),
   (keyofWord, "keyof"), (letWord, "let"), (metaWord, "meta"), (moduleWord, "module"),
   (namespaceWord, "namespace"), (neverWord, "never"), (newWord, "new"), (nullWord, "null"),
   (numberWord, "number"), (objectWord, "object"), (ofWord, "of"), (overrideWord, "override"),
   (privateWord, "private"), (protectedWord, "protected"), (publicWord, "public"),
   (readonlyWord, "readonly"), (requireWord, "require"), (returnWord, "return"),
   (satisfiesWord, "satisfies"), (setWord, "set"), (staticWord, "static"), (stringWord, "string"),
   (superWord, "super"), (switchWord, "switch"), (symbolWord, "symbol"), (targetWord, "target"),
   (thisWord, "this"), (throwWord, "throw"), (trueWord, "true"), (tryWord, "try"),
   (typeWord, "type"), (typeofWord, "typeof"), (undefinedWord, "undefined"),
   (uniqueWord, "unique"), (unknownWord, "unknown"), (usingWord, "using"), (varWord, "var"),
   (voidWord, "void"), (whileWord, "while"), (withWord, "with"), (yieldWord, "yield")]

/-- The keyword spelled by the characters, if there is one. -/
def ofChars? (cs : List Char) : Option Keyword :=
  (spellings.find? fun entry => entry.2.toList == cs).map Prod.fst

/-- A reserved word is never an identifier.  The other keywords are identifiers wherever the
grammar gives them no meaning. -/
def isReserved : Keyword → Bool
  | breakWord | caseWord | catchWord | classWord | constWord | continueWord | debuggerWord
  | defaultWord | deleteWord | doWord | elseWord | enumWord | exportWord | extendsWord | falseWord
  | finallyWord | forWord | functionWord | ifWord | importWord | inWord | instanceofWord | newWord
  | nullWord | returnWord | superWord | switchWord | thisWord | throwWord | trueWord | tryWord
  | typeofWord | varWord | voidWord | whileWord | withWord => true
  | _ => false

/-- After these words an operand is still to come, so a `/` opens a regular expression. -/
def awaitsOperand : Keyword → Bool
  | awaitWord | caseWord | defaultWord | deleteWord | doWord | elseWord | extendsWord | inWord
  | instanceofWord | newWord | returnWord | throwWord | typeofWord | voidWord | yieldWord => true
  | _ => false

/-- A parenthesis after these words holds a head, so that what follows it starts a statement. -/
def takesHead : Keyword → Bool
  | forWord | ifWord | whileWord | withWord => true
  | _ => false

end Keyword

/-- A mark of the grammar. -/
inductive Punctuator
  | openBrace | closeBrace | openParen | closeParen | openBracket | closeBracket
  | semicolon | comma | dot | ellipsis | colon | question | optionalChain | nullish | arrow
  | assign | plusAssign | minusAssign | timesAssign | powerAssign | divideAssign | remainderAssign
  | shiftLeftAssign | andAssign | orAssign | xorAssign | logicalAndAssign | logicalOrAssign
  | nullishAssign
  | equal | strictEqual | notEqual | strictNotEqual | less | greater | lessEqual | shiftLeft
  | plus | minus | times | power | divide | remainder | increment | decrement
  | bitAnd | bitOr | bitXor | bitNot | logicalAnd | logicalOr | bang | decorator
  deriving DecidableEq, Repr

namespace Punctuator

/-- Every mark with its spelling.  A mark stands before all marks that begin its spelling, so the
first one that fits is the longest. -/
def spellings : List (Punctuator × String) :=
  [(strictEqual, "==="), (strictNotEqual, "!=="), (ellipsis, "..."), (powerAssign, "**="),
   (shiftLeftAssign, "<<="), (logicalAndAssign, "&&="), (logicalOrAssign, "||="),
   (nullishAssign, "??="),
   (arrow, "=>"), (equal, "=="), (notEqual, "!="), (lessEqual, "<="), (shiftLeft, "<<"),
   (plusAssign, "+="), (minusAssign, "-="), (timesAssign, "*="), (divideAssign, "/="),
   (remainderAssign, "%="), (andAssign, "&="), (orAssign, "|="), (xorAssign, "^="),
   (power, "**"), (increment, "++"), (decrement, "--"), (logicalAnd, "&&"), (logicalOr, "||"),
   (nullish, "??"), (optionalChain, "?."),
   (openBrace, "\x7b"), (closeBrace, "\x7d"), (openParen, "("), (closeParen, ")"), (openBracket, "["),
   (closeBracket, "]"), (semicolon, ";"), (comma, ","), (dot, "."), (colon, ":"),
   (question, "?"), (assign, "="), (less, "<"), (greater, ">"), (plus, "+"), (minus, "-"),
   (times, "*"), (divide, "/"), (remainder, "%"), (bitAnd, "&"), (bitOr, "|"), (bitXor, "^"),
   (bitNot, "~"), (bang, "!"), (decorator, "@")]

end Punctuator

/-- What a stretch of the text is. -/
inductive TokenKind
  /-- An identifier or a keyword. -/
  | word (keyword : Option Keyword)
  /-- A `#name`. -/
  | privateName
  | number
  | string
  | regex
  /-- The backquote that opens a template. -/
  | templateOpen
  /-- Literal characters of a template. -/
  | templateChars
  /-- The backquote that closes a template. -/
  | templateClose
  /-- The opening of a substitution inside a template. -/
  | substitutionOpen
  | mark (mark : Punctuator)
  /-- A `#!` line at the top of the file. -/
  | interpreterLine
  /-- A character that starts no token, or a literal that is not closed. -/
  | stray
  deriving DecidableEq, Repr

/-- A stretch of the text from byte `start` up to byte `stop`. -/
structure Token where
  kind : TokenKind
  start : Nat
  stop : Nat
  /-- Whether a line ends between the previous token and this one. -/
  afterBreak : Bool
  deriving DecidableEq, Repr

/-- The stretch of the text that a comment takes up. -/
structure Comment where
  start : Nat
  stop : Nat
  /-- Whether a line ends between the token before it and the comment. -/
  afterBreak : Bool
  deriving DecidableEq, Repr

namespace Token

/-- The keyword that the token spells. -/
def keyword? (token : Token) : Option Keyword :=
  match token.kind with
  | .word keyword => keyword
  | _ => none

/-- The mark that the token is. -/
def mark? (token : Token) : Option Punctuator :=
  match token.kind with
  | .mark mark => some mark
  | _ => none

/-- Whether the token is a word, reserved or not. -/
def isWord (token : Token) : Bool :=
  match token.kind with
  | .word _ => true
  | _ => false

/-- Whether the token may stand as an identifier. -/
def isIdentifier (token : Token) : Bool :=
  match token.kind with
  | .word none => true
  | .word (some keyword) => !keyword.isReserved
  | _ => false

end Token

end ModelGrid.Syntax
