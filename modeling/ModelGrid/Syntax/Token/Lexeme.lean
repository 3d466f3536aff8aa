import ModelGrid.Syntax.Token
import ModelGrid.Text.Blank

/-!
# The spelling of single tokens

Each function here reads one token or comment from the front of the text.  It returns the
characters it takes and those it leaves, so that the two together are the text it was given.

## Main definitions

* `Lexeme.word`, `Lexeme.number`, `Lexeme.quoted`, `Lexeme.regex`, `Lexeme.templateChars`,
  `Lexeme.comment`, `Lexeme.mark?`
-/

namespace ModelGrid.Syntax

/-- White space between tokens: the blanks, and three characters without width. -/
def isSpace (c : Char) : Bool :=
  Text.isBlank c || c == '\uFEFF' || c == '\u2060' || c == '\u200B'

/-- The characters that end a line. -/
def isLineBreak (c : Char) : Bool :=
  c == '\n' || c == '\u2028' || c == '\u2029'

/-- The characters of which identifiers are made, digits included.  All others are control
characters, white space, or have a meaning of their own in the grammar. -/
def isIdentifierPart (c : Char) : Bool :=
  !(c.val < 0x20 || isSpace c || ":;`\"'@#.,|^&<=>+-*/\\%?!~()[]\x7b\x7d".toList.contains c)

namespace Lexeme

/-- The characters that a token takes, and those after it. -/
abbrev Split := List Char × List Char

/-- Put one more character in front of what is taken. -/
def Split.push (c : Char) (s : Split) : Split := (c :: s.1, s.2)

private def isHexDigit (c : Char) : Bool :=
  c.isDigit || ('a' ≤ c && c ≤ 'f') || ('A' ≤ c && c ≤ 'F')

/-- A written-out character such as `\u0041` or `\u{41}` inside an identifier. -/
def escape? : List Char → Option Split
  | '\\' :: 'u' :: '\x7b' :: rest =>
    match rest.span isHexDigit with
    | (d :: ds, '\x7d' :: after) => some ('\\' :: 'u' :: '\x7b' :: (d :: ds) ++ ['\x7d'], after)
    | _ => none
  | '\\' :: 'u' :: a :: b :: c :: d :: rest =>
    if [a, b, c, d].all isHexDigit then some (['\\', 'u', a, b, c, d], rest) else none
  | _ => none

/-- The rest of an identifier. -/
def identifierTail : Nat → List Char → Split
  | 0, cs => ([], cs)
  | _ + 1, [] => ([], [])
  | n + 1, c :: cs =>
    if isIdentifierPart c then
      (identifierTail n cs).push c
    else
      match escape? (c :: cs) with
      | some (taken, rest) =>
        let (more, after) := identifierTail n rest
        (taken ++ more, after)
      | none => ([], c :: cs)

/-- An identifier or a keyword. -/
def word (cs : List Char) : Option Split :=
  match cs with
  | [] => none
  | c :: _ =>
    if c.isDigit then none
    else
      match identifierTail cs.length cs with
      | ([], _) => none
      | split => some split

/-- A `#name`. -/
def privateName : List Char → Option Split
  | '#' :: cs => (word cs).map (Split.push '#')
  | _ => none

private def isDigitOrSeparator (c : Char) : Bool :=
  c.isDigit || c == '_'

private def isAlphanumeric (c : Char) : Bool :=
  c.isAlphanum || c == '_'

/-- The exponent of a number, or nothing. -/
def exponent : List Char → Split
  | e :: cs =>
    if e == 'e' || e == 'E' then
      match cs with
      | sign :: d :: rest =>
        if (sign == '+' || sign == '-') && d.isDigit then
          let (digits, after) := (d :: rest).span isDigitOrSeparator
          (e :: sign :: digits, after)
        else if sign.isDigit then
          let (digits, after) := cs.span isDigitOrSeparator
          (e :: digits, after)
        else ([], e :: cs)
      | [d] => if d.isDigit then ([e, d], []) else ([], [e, d])
      | [] => ([], [e])
    else if e == 'n' then ([e], cs)
    else ([], e :: cs)
  | [] => ([], [])

/-- The part of a number from its decimal point on, or its exponent alone, or nothing. -/
def fraction : List Char → Split
  | '.' :: cs =>
    let (digits, rest) := cs.span isDigitOrSeparator
    let (power, after) := exponent rest
    ('.' :: digits ++ power, after)
  | cs => exponent cs

/-- A number: decimal, with a base prefix, or a big integer. -/
def number : List Char → Option Split
  | '0' :: x :: d :: cs =>
    if "xXoObB".toList.contains x && isHexDigit d then
      let (digits, rest) := (d :: cs).span isAlphanumeric
      some ('0' :: x :: digits, rest)
    else
      let (digits, rest) := ('0' :: x :: d :: cs).span isDigitOrSeparator
      let (more, after) := fraction rest
      some (digits ++ more, after)
  | '.' :: d :: cs =>
    if d.isDigit then some (fraction ('.' :: d :: cs)) else none
  | c :: cs =>
    if c.isDigit then
      let (digits, rest) := (c :: cs).span isDigitOrSeparator
      let (more, after) := fraction rest
      some (digits ++ more, after)
    else none
  | [] => none

/-- The rest of a string literal up to its closing quote.  A backslash takes the character after
it along; a line does not end inside the literal otherwise. -/
def quotedTail (quote : Char) : List Char → Option Split
  | [] => none
  | '\\' :: '\r' :: '\n' :: cs =>
    (quotedTail quote cs).map fun s => ('\\' :: '\r' :: '\n' :: s.1, s.2)
  | '\\' :: c :: cs => (quotedTail quote cs).map fun s => ('\\' :: c :: s.1, s.2)
  | c :: cs =>
    if c == quote then some ([c], cs)
    else if c == '\n' || c == '\r' then none
    else (quotedTail quote cs).map (Split.push c)

/-- A string literal. -/
def quoted : List Char → Option Split
  | c :: cs =>
    if c == '"' || c == '\'' then (quotedTail c cs).map (Split.push c) else none
  | [] => none

/-- The rest of a regular expression up to its closing slash; a slash between brackets does not
close it. -/
def regexTail (inClass : Bool) : List Char → Option Split
  | [] => none
  | '\\' :: c :: cs =>
    if c == '\n' || c == '\r' then none
    else (regexTail inClass cs).map fun s => ('\\' :: c :: s.1, s.2)
  | c :: cs =>
    if c == '\n' || c == '\r' then none
    else if c == '/' && !inClass then some ([c], cs)
    else
      (regexTail (if c == '[' then true else if c == ']' then false else inClass) cs).map
        (Split.push c)

/-- A regular expression with its flags. -/
def regex : List Char → Option Split
  | '/' :: cs =>
    (regexTail false cs).map fun (body, rest) =>
      let (flags, after) := rest.span Char.isAlpha
      ('/' :: body ++ flags, after)
  | _ => none

/-- Literal characters of a template, up to a backquote or a substitution. -/
def templateChars : List Char → Split
  | [] => ([], [])
  | '\\' :: c :: cs =>
    let s := templateChars cs
    ('\\' :: c :: s.1, s.2)
  | '\x60' :: cs => ([], '\x60' :: cs)
  | '$' :: '\x7b' :: cs => ([], '$' :: '\x7b' :: cs)
  | c :: cs => (templateChars cs).push c

/-- The rest of a block comment. -/
def blockCommentTail : List Char → Option Split
  | [] => none
  | '*' :: '/' :: cs => some (['*', '/'], cs)
  | c :: cs => (blockCommentTail cs).map (Split.push c)

/-- A comment to the end of the line or between its two marks. -/
def comment : List Char → Option Split
  | '/' :: '/' :: cs =>
    let (body, rest) := cs.span fun c => !(isLineBreak c || c == '\r')
    some ('/' :: '/' :: body, rest)
  | '/' :: '*' :: cs => (blockCommentTail cs).map fun s => ('/' :: '*' :: s.1, s.2)
  | _ => none

/-- A `#!` line, without the line feed that ends it. -/
def interpreterLine : List Char → Option Split
  | '#' :: '!' :: cs =>
    let (body, rest) := cs.span (· != '\n')
    some ('#' :: '!' :: body, rest)
  | _ => none

/-- Take the given characters off the front of the text. -/
def literally : List Char → List Char → Option Split
  | [], cs => some ([], cs)
  | _ :: _, [] => none
  | l :: ls, c :: cs => if l == c then (literally ls cs).map (Split.push c) else none

/-- The first mark of the list that the text begins with. -/
def firstMark? : List (Punctuator × String) → List Char → Option (Punctuator × Split)
  | [], _ => none
  | (mark, spelling) :: rest, cs =>
    match literally spelling.toList cs with
    | some split => some (mark, split)
    | none => firstMark? rest cs

/-- The longest mark that the text begins with.  An optional chain is not followed by a digit:
`a?.5:b` is a choice between two values. -/
def mark? (cs : List Char) : Option (Punctuator × Split) :=
  match cs with
  | '?' :: '.' :: d :: rest =>
    if d.isDigit then some (.question, ['?'], '.' :: d :: rest)
    else firstMark? Punctuator.spellings cs
  | _ => firstMark? Punctuator.spellings cs

end Lexeme

end ModelGrid.Syntax
