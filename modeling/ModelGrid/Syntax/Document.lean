import ModelGrid.Syntax.Comments
import ModelGrid.Syntax.Grammar
import ModelGrid.Syntax.Place
import ModelGrid.Syntax.Token.Scan

/-!
# Source files

A text together with a syntax tree of it.  Searches and edits are stated for any tree, so that they
do not depend on how the tree was made.

## Main definitions

* `Document`: a text and its tree.
* `Document.parse`: the tree that the grammar makes of a text.
* `Document.charsOf`, `Document.trivia`: the characters of a place, and those between it and
  the token in front of it.
-/

namespace ModelGrid.Syntax

/-- A text and a tree of it. -/
structure Document where
  text : List Char
  root : Node
  deriving Repr

namespace Document

/-- The tree that the grammar makes of a text.  It spans the whole text. -/
def parse (text : String) : Document :=
  let chars := text.toList
  let (tokens, comments) := Token.scan chars
  let .node label children := (Grammar.program tokens).addComments chars comments
  ⟨chars, .node { label with start := 0, stop := Text.size chars } children⟩

/-- The places of the file in document order. -/
def places (file : Document) : List Place :=
  Place.preorder file.root

/-- The first place in document order that passes the test. -/
def find? (file : Document) (passes : Place → Bool) : Option Place :=
  file.places.find? passes

/-- The characters of a place. -/
def charsOf (file : Document) (place : Place) : List Char :=
  place.node.chars file.text

/-- The white space and comments in front of a place. -/
def trivia (file : Document) (place : Place) : List Char :=
  Text.slice file.text place.leadingStart place.node.start

end Document

end ModelGrid.Syntax
