import ModelGrid.Syntax.Token.Lexeme
import ModelGrid.Text.Offset

/-!
# Scanning a text into tokens

The scan walks the text once.  What the characters at a position mean depends on what came before:
inside a template they are literal, and a slash opens a regular expression unless an operand has
just ended.  The scan therefore carries the open brackets and whether an operand has just ended.

## Main definitions

* `Scanner`: what the scan remembers of the tokens behind it.
* `Token.scan`: the tokens and the comments of a text, each in order.
-/

namespace ModelGrid.Syntax

/-- An open bracket. -/
inductive Bracket
  /-- A parenthesis; `head` if it holds the head of a statement, as after `while`. -/
  | group (head : Bool)
  | index
  /-- A brace around statements or members. -/
  | block
  /-- A brace around the entries of a value. -/
  | record
  /-- A substitution inside a template. -/
  | substitution
  | template
  deriving DecidableEq, Repr

/-- What the scan remembers of the tokens behind it. -/
structure Scanner where
  previous : Option TokenKind := none
  /-- Whether the previous token ends an operand. -/
  afterOperand : Bool := false
  brackets : List Bracket := []
  deriving Repr

namespace Scanner

/-- Whether the text at hand is the literal part of a template. -/
def inTemplate (s : Scanner) : Bool :=
  s.brackets.head? == some .template

/-- Whether a brace at this place encloses statements or members and not the entries of a value. -/
def braceOpensBlock (s : Scanner) : Bool :=
  s.afterOperand ||
    match s.previous with
    | none => true
    | some (.mark mark) =>
      [.arrow, .semicolon, .openBrace, .closeBrace, .closeParen].contains mark
    | some (.word (some keyword)) =>
      [.elseWord, .doWord, .tryWord, .finallyWord, .staticWord].contains keyword
    | _ => false

/-- Whether a parenthesis at this place holds the head of a statement. -/
def parenOpensHead (s : Scanner) : Bool :=
  match s.previous with
  | some (.word (some keyword)) => keyword.takesHead && !s.afterOperand
  | _ => false

/-- Whether the word at this place is the name of a member. -/
def afterDot (s : Scanner) : Bool :=
  s.previous == some (.mark .dot) || s.previous == some (.mark .optionalChain)

/-- Whether an operand has ended after the word at this place. -/
def wordEndsOperand (s : Scanner) : Option Keyword → Bool
  | none => true
  | some keyword =>
    s.afterDot ||
      !(keyword.awaitsOperand || keyword.takesHead || (keyword == .ofWord && s.afterOperand))

/-- The scanner after a token of the kind. -/
def advance (s : Scanner) (kind : TokenKind) (afterBreak : Bool) : Scanner :=
  match kind with
  | .word keyword => { s with previous := some kind, afterOperand := s.wordEndsOperand keyword }
  | .mark mark =>
    match mark with
    | .openParen =>
      { previous := some kind, brackets := .group s.parenOpensHead :: s.brackets }
    | .openBracket => { previous := some kind, brackets := .index :: s.brackets }
    | .openBrace =>
      { previous := some kind
        brackets := (if s.braceOpensBlock then .block else .record) :: s.brackets }
    | .closeParen =>
      { previous := some kind
        afterOperand := s.brackets.head? != some (.group true)
        brackets := s.brackets.tail }
    | .closeBracket =>
      { previous := some kind, afterOperand := true, brackets := s.brackets.tail }
    | .closeBrace =>
      { previous := some kind
        afterOperand := s.brackets.head? == some .record
        brackets := s.brackets.tail }
    | .increment | .decrement => { s with previous := some kind }
    | .bang => { s with previous := some kind, afterOperand := s.afterOperand && !afterBreak }
    | _ => { s with previous := some kind, afterOperand := false }
  | .templateOpen =>
    { previous := some kind, brackets := .template :: s.brackets }
  | .templateClose =>
    { previous := some kind, afterOperand := true, brackets := s.brackets.tail }
  | .substitutionOpen =>
    { previous := some kind, brackets := .substitution :: s.brackets }
  | .templateChars => { s with previous := some kind }
  | .interpreterLine => s
  | .privateName | .number | .string | .regex | .stray =>
    { s with previous := some kind, afterOperand := true }

/-- The token at the front of the literal part of a template. -/
def templateToken : List Char → Option (TokenKind × Lexeme.Split)
  | [] => none
  | '\x60' :: cs => some (.templateClose, ['\x60'], cs)
  | '$' :: '\x7b' :: cs => some (.substitutionOpen, ['$', '\x7b'], cs)
  | cs => some (.templateChars, Lexeme.templateChars cs)

/-- The token at the front of a text outside templates that begins with neither a blank nor a
comment. -/
def plainToken (s : Scanner) : List Char → Option (TokenKind × Lexeme.Split)
  | [] => none
  | c :: cs =>
    let text := c :: cs
    if let some (taken, rest) := Lexeme.word text then
      some (.word (Keyword.ofChars? taken), taken, rest)
    else if let some split := Lexeme.number text then some (.number, split)
    else if let some split := Lexeme.quoted text then some (.string, split)
    else if c == '\x60' then some (.templateOpen, [c], cs)
    else if let some split := Lexeme.privateName text then some (.privateName, split)
    else
      match if s.afterOperand then none else Lexeme.regex text with
      | some split => some (.regex, split)
      | none =>
        match Lexeme.mark? text with
        | some (mark, split) => some (.mark mark, split)
        | none => some (.stray, [c], cs)

end Scanner

/-- Put a token in front of what a scan finds. -/
private def pushToken (token : Token) (found : List Token × List Comment) :
    List Token × List Comment :=
  (token :: found.1, found.2)

/-- The scan from byte `position` on.  Each step takes at least one character, so a fuel of the
length of the text is enough. -/
def Scanner.run : Nat → Scanner → Nat → Bool → List Char → List Token × List Comment
  | 0, _, _, _, _ => ([], [])
  | _ + 1, _, _, _, [] => ([], [])
  | fuel + 1, s, position, afterBreak, c :: cs =>
    let text := c :: cs
    let emit (found : Option (TokenKind × Lexeme.Split)) : List Token × List Comment :=
      match found with
      | none => ([], [])
      | some (kind, taken, rest) =>
        let stop := position + Text.size taken
        pushToken ⟨kind, position, stop, afterBreak⟩
          (run fuel (s.advance kind afterBreak) stop false rest)
    if s.inTemplate then emit (templateToken text)
    else if isSpace c then
      run fuel s (position + c.utf8Size) (afterBreak || isLineBreak c) cs
    else
      match Lexeme.comment text with
      | some (taken, rest) =>
        let stop := position + Text.size taken
        let (tokens, comments) := run fuel s stop (afterBreak || taken.any isLineBreak) rest
        (tokens, ⟨position, stop, afterBreak⟩ :: comments)
      | none => emit (s.plainToken text)

/-- The tokens and the comments of a text, each in order.  A `#!` line may stand at the top. -/
def Token.scan (text : List Char) : List Token × List Comment :=
  match Lexeme.interpreterLine text with
  | some (taken, rest) =>
    let stop := Text.size taken
    pushToken ⟨.interpreterLine, 0, stop, false⟩ (Scanner.run text.length {} stop false rest)
  | none => Scanner.run text.length {} 0 false text

end ModelGrid.Syntax
