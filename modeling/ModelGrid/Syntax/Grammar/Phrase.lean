import ModelGrid.Syntax.Node
import ModelGrid.Syntax.Token

/-!
# Parts of a grammar

A phrase of the grammar reads a stretch of the tokens and returns the nodes it makes of them, or
nothing where the tokens do not fit.  The grammar itself is written with the combinators below, so
that each rule reads like the construct it describes.

## Main definitions

* `Phrase`: a reader of a stretch of tokens.
* `Phrase.seq`, `Phrase.first`, `Phrase.opt`, `Phrase.many`, `Phrase.chain`: sequence, ordered choice,
  option, repetition, and repetition that extends what stands to the left.
* `Phrase.build`: what a phrase reads, as one node.
* `Phrase.key`, `Phrase.mark`, `Phrase.name`: single tokens.
-/

namespace ModelGrid.Syntax

/-- A reader of a stretch of tokens: the nodes made of it and the tokens after it. -/
abbrev Phrase := List Token → Option (List Node × List Token)

namespace Phrase

/-- Read nothing and make the given nodes. -/
def emit (nodes : List Node) : Phrase := fun tokens => some (nodes, tokens)

/-- Never fit. -/
def fail : Phrase := fun _ => none

/-- Read the phrases one after another. -/
def seq : List Phrase → Phrase
  | [], tokens => some ([], tokens)
  | p :: ps, tokens =>
    match p tokens with
    | none => none
    | some (nodes, rest) =>
      match seq ps rest with
      | none => none
      | some (more, after) => some (nodes ++ more, after)

/-- Read the first phrase that fits. -/
def first : List Phrase → Phrase
  | [], _ => none
  | p :: ps, tokens =>
    match p tokens with
    | some found => some found
    | none => first ps tokens

/-- Read the phrases one after another if they fit, else nothing. -/
def opt (ps : List Phrase) : Phrase := first [seq ps, emit []]

/-- Read the phrase as often as it fits and reads something, at most `fuel` times. -/
def manyUpTo (p : Phrase) : Nat → Phrase
  | 0, tokens => some ([], tokens)
  | fuel + 1, tokens =>
    match p tokens with
    | none => some ([], tokens)
    | some (nodes, rest) =>
      if rest.length < tokens.length then
        match manyUpTo p fuel rest with
        | none => none
        | some (more, after) => some (nodes ++ more, after)
      else some ([], tokens)

/-- Read the phrase as often as it fits. -/
def many (p : Phrase) : Phrase := fun tokens => manyUpTo p tokens.length tokens

/-- Extend what stands to the left as often as the suffix fits, at most `fuel` times. -/
def chainUpTo (suffix : List Node → Phrase) : Nat → List Node → Phrase
  | 0, left, tokens => some (left, tokens)
  | fuel + 1, left, tokens =>
    match suffix left tokens with
    | none => some (left, tokens)
    | some (next, rest) => chainUpTo suffix fuel next rest

/-- Read the phrase, then extend it as often as the suffix fits. -/
def chain (p : Phrase) (suffix : List Node → Phrase) : Phrase := fun tokens =>
  match p tokens with
  | none => none
  | some (left, rest) => chainUpTo suffix rest.length left rest

/-- Addition the nodes that a phrase makes. -/
def map (f : List Node → List Node) (p : Phrase) : Phrase := fun tokens =>
  match p tokens with
  | none => none
  | some (nodes, rest) => some (f nodes, rest)

/-- Read the phrases one after another and make one node of them. -/
def build (kind : Kind) (ps : List Phrase) : Phrase :=
  (seq ps).map fun nodes => [Node.branch kind nodes]

/-- Make one node of what stands to the left and the phrases after it. -/
def extend (kind : Kind) (left : List Node) (ps : List Phrase) : Phrase :=
  build kind (emit left :: ps)

/-- Read the phrase, then go on in a way that depends on what it made. -/
def andThen (p : Phrase) (next : List Node → Phrase) : Phrase := fun tokens =>
  match p tokens with
  | none => none
  | some (left, rest) => next left rest

/-- Give the nodes that a phrase makes a role in their parent. -/
def role (field : Field) (p : Phrase) : Phrase :=
  p.map fun nodes => nodes.map (Node.withField field)

/-- Read nothing, and fit only if the tokens ahead pass the test. -/
def test (passes : List Token → Bool) : Phrase := fun tokens =>
  if passes tokens then some ([], tokens) else none

/-- Read nothing, and fit only if the phrase does. -/
def ahead (p : Phrase) : Phrase := test fun tokens => (p tokens).isSome

/-- Read nothing, and fit only if the phrase does not. -/
def notAhead (p : Phrase) : Phrase := test fun tokens => (p tokens).isNone

/-- Read one token that passes the test as a leaf of the kind. -/
def leaf (kind : Kind) (passes : Token → Bool) : Phrase
  | [] => none
  | token :: rest =>
    if passes token then some ([Node.leaf kind token.start token.stop], rest) else none

/-- Read one token as text that is no construct. -/
def stray : Phrase
  | [] => none
  | token :: rest => some ([Node.stray token.start token.stop], rest)

/-- Read a token of the given kind as a leaf. -/
def token (kind : Kind) (expected : TokenKind) : Phrase :=
  leaf kind fun token => token.kind == expected

/-- Read a keyword. -/
def key (keyword : Keyword) : Phrase :=
  leaf (if keyword == .returnWord then .returnKeyword else .keyword)
    fun token => token.keyword? == some keyword

/-- Read a keyword as a leaf of a named kind. -/
def keyAs (kind : Kind) (keyword : Keyword) : Phrase :=
  leaf kind fun token => token.keyword? == some keyword

/-- The kind of leaf that a mark is. -/
def kindOfMark : Punctuator → Kind
  | .openBrace => .openBrace
  | .semicolon => .semicolon
  | _ => .punctuation

/-- Read a mark. -/
def mark (mark : Punctuator) : Phrase :=
  leaf (kindOfMark mark) fun token => token.mark? == some mark

/-- Read an identifier as a leaf of the kind. -/
def name (kind : Kind) : Phrase := leaf kind Token.isIdentifier

/-- Read a word, reserved or not, as a leaf of the kind. -/
def anyWord (kind : Kind) : Phrase := leaf kind Token.isWord

/-- Fit only if no line ends before the next token. -/
def sameLine : Phrase := test fun tokens =>
  match tokens with
  | [] => false
  | token :: _ => !token.afterBreak

/-- Fit only at the end of the tokens. -/
def atEnd : Phrase := test List.isEmpty

/-- The end of a statement: a semicolon, or the place before a closing brace, after a line end, or
at the end of the tokens, where it may be left out. -/
def semicolon : Phrase :=
  first
    [mark .semicolon,
     test fun tokens =>
       match tokens with
       | [] => true
       | token :: _ => token.afterBreak || token.mark? == some .closeBrace]

/-- One or more of the phrase, with the mark between them. -/
def separated (by' : Punctuator) (p : Phrase) : Phrase :=
  seq [p, many (seq [mark by', p])]

/-- Any number of the phrase with commas between them; a comma may follow the last, and a place
between two commas may be empty. -/
def commaList (p : Phrase) : Phrase :=
  many (first [mark .comma, p])

/-- A closing brace; where the text ends before it, one is supplied after the nodes to its
left. -/
def closeBrace (left : List Node) : Phrase
  | [] => some (left ++ [Node.absent .punctuation ((left.getLast?.map Node.stop).getD 0)], [])
  | tokens => (mark .closeBrace).map (left ++ ·) tokens

/-- Items in braces as one node.  A token that no item begins with is kept as no construct, and
a missing closing brace at the end of the text is supplied. -/
def braced (kind : Kind) (item : Phrase) : Phrase :=
  (andThen
    (seq
      [mark .openBrace,
       many (first [item, seq [notAhead (mark .closeBrace), stray]])])
    closeBrace).map fun nodes => [Node.branch kind nodes]

/-- The tokens after the bracket that closes the one just read, at most `fuel` tokens on; `depth`
counts the brackets still open. -/
def skipGroup : Nat → Nat → List Token → Option (List Token)
  | 0, _, _ => none
  | _ + 1, _, [] => none
  | fuel + 1, depth, token :: rest =>
    match token.kind with
    | .mark .openParen | .mark .openBracket | .mark .openBrace | .substitutionOpen =>
      skipGroup fuel (depth + 1) rest
    | .mark .closeParen | .mark .closeBracket | .mark .closeBrace =>
      match depth with
      | 0 => some rest
      | depth + 1 => skipGroup fuel depth rest
    | _ => skipGroup fuel depth rest

/-- Fit only if the tokens ahead are a group in parentheses with the phrase after it. -/
def groupThen (p : Phrase) : Phrase := test fun tokens =>
  match tokens with
  | token :: rest =>
    token.mark? == some .openParen &&
      match skipGroup rest.length 0 rest with
      | some after => (p after).isSome
      | none => false
  | [] => false

end Phrase

end ModelGrid.Syntax
