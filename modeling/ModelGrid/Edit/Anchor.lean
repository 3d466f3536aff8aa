import ModelGrid.Syntax.Document

/-!
# Anchors

An anchor is a place in a file that is found by its structure, so that text can be inserted there
whatever the file is named after and however it is laid out.

## Main definitions

* `Anchor`: the places that are searched for.
* `Anchor.offset?`: the byte offset of an anchor.
-/

namespace ModelGrid.Edit

open Syntax

/-- A place that is found by its structure. -/
inductive Anchor
  /-- In front of the first `return` statement, ahead of its leading white space and comments. -/
  | beforeReturn
  /-- Behind the brace that opens the body of the first function with an arrow. -/
  | arrowBodyStart
  deriving DecidableEq, Repr

namespace Anchor

/-- What a message calls the anchor. -/
def title : Anchor → String
  | beforeReturn => "ReturnKeyword"
  | arrowBodyStart => "ArrowFunction block OpenBraceToken"

/-- In front of the first `return` statement.  A member named `return` is none. -/
def beforeReturn? (file : Document) : Option Nat :=
  (file.find? fun place =>
    place.node.kind == .returnKeyword && place.parentKind? == some .returnStatement).map
      Place.leadingStart

/-- Behind the brace that opens the body of the first function with an arrow.  Only the first such
function counts, whatever its body is. -/
def arrowBodyStart? (file : Document) : Option Nat :=
  match file.find? fun place => place.node.kind == .arrowFunction with
  | none => none
  | some arrow =>
    match arrow.node.childOf? .body with
    | none => none
    | some body =>
      if body.kind == .statementBlock then
        match body.children with
        | brace :: _ => if brace.kind == .openBrace then some brace.stop else none
        | [] => none
      else none

/-- The byte offset of an anchor, if the file has it. -/
def offset? (anchor : Anchor) (file : Document) : Option Nat :=
  match anchor with
  | beforeReturn => beforeReturn? file
  | arrowBodyStart => arrowBodyStart? file

end Anchor

end ModelGrid.Edit
