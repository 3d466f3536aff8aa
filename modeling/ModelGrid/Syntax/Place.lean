import ModelGrid.Syntax.Node

/-!
# Places in a syntax tree

A place is a node together with the way back to the root, so that siblings and ancestors can be
reached from it.

## Main definitions

* `Place`: a node in its tree.
* `Place.firstChild?`, `Place.nextSibling?`, `Place.parent?`: the moves of a cursor.
* `Place.preorder`: the places that a cursor visits which always moves to the first child, else to
  the next sibling, else back up to the nearest ancestor with a next sibling.
* `Node.places`: all places of a tree, each before those below it and siblings from left to right.
* `Place.leadingStart`: where the white space and comments in front of a place begin.
-/

namespace ModelGrid.Syntax

/-- One step on the way from a node to the root. -/
structure Level where
  parent : Label
  /-- The earlier siblings, nearest first. -/
  before : List Node
  /-- The later siblings, nearest first. -/
  after : List Node
  deriving Repr

/-- A node in its tree. -/
structure Place where
  node : Node
  /-- The way back to the root, nearest step first. -/
  above : List Level
  deriving Repr

namespace Place

/-- The root of a tree. -/
def root (tree : Node) : Place := ⟨tree, []⟩

/-- Move to the first child. -/
def firstChild? (p : Place) : Option Place :=
  match p.node.children with
  | [] => none
  | child :: rest => some ⟨child, ⟨p.node.label, [], rest⟩ :: p.above⟩

/-- Move to the next sibling. -/
def nextSibling? (p : Place) : Option Place :=
  match p.above with
  | ⟨parent, before, next :: rest⟩ :: above =>
    some ⟨next, ⟨parent, p.node :: before, rest⟩ :: above⟩
  | _ => none

/-- Move to the parent. -/
def parent? (p : Place) : Option Place :=
  match p.above with
  | [] => none
  | ⟨parent, before, after⟩ :: above =>
    some ⟨.node parent (before.reverse ++ p.node :: after), above⟩

/-- The kind of the parent. -/
def parentKind? (p : Place) : Option Kind :=
  p.above.head?.map fun level => level.parent.kind

/-- Move back up until there is a next sibling to move to. -/
def climb (node : Node) : List Level → Option Place
  | [] => none
  | level :: above =>
    match (Place.mk node (level :: above)).nextSibling? with
    | some next => some next
    | none => climb (.node level.parent (level.before.reverse ++ node :: level.after)) above

/-- The place a cursor visits after this one. -/
def next? (p : Place) : Option Place :=
  match p.firstChild? with
  | some child => some child
  | none => climb p.node p.above

/-- The places that a cursor visits from this one on, at most `fuel` of them. -/
def visits : Nat → Place → List Place
  | 0, _ => []
  | fuel + 1, p =>
    p :: match p.next? with
      | some next => visits fuel next
      | none => []

/-- The places that a cursor visits from the root of a tree. -/
def preorder (tree : Node) : List Place :=
  visits tree.count (root tree)

/-- The end of the nearest token before a node that has the given way to the root: the last token
of the nearest earlier sibling that is no extra, of the node or else of its nearest ancestor that
has one. -/
def leadingStartBelow : List Level → Nat
  | [] => 0
  | level :: above =>
    match level.before.find? fun sibling => !sibling.isExtra with
    | some sibling => sibling.lastTokenStop
    | none => leadingStartBelow above

/-- Where the white space and the comments in front of the place begin. -/
def leadingStart (p : Place) : Nat :=
  leadingStartBelow p.above

/-- The places of the children that are constructs, comments left out. -/
def constructsFrom (parent : Label) (above : List Level) :
    List Node → List Node → List Place
  | _, [] => []
  | before, child :: rest =>
    let later := constructsFrom parent above (child :: before) rest
    if child.kind.isNamed && !child.isExtra then
      ⟨child, ⟨parent, before, rest⟩ :: above⟩ :: later
    else later

/-- The places of the children that are constructs, comments left out. -/
def constructs (p : Place) : List Place :=
  constructsFrom p.node.label p.above [] p.node.children

/-- The place of the first child in a role among the children after those in `before`. -/
def childOfFrom (field : Field) (parent : Label) (above : List Level) :
    List Node → List Node → Option Place
  | _, [] => none
  | before, child :: rest =>
    if child.label.field == some field then some ⟨child, ⟨parent, before, rest⟩ :: above⟩
    else childOfFrom field parent above (child :: before) rest

/-- The place of the first child in the role. -/
def childOf? (p : Place) (field : Field) : Option Place :=
  childOfFrom field p.node.label p.above [] p.node.children

end Place

mutual

/-- The places of a tree that has the given way to the root: the tree first, then those of its
children from left to right. -/
def Node.placesBelow (above : List Level) : Node → List Place
  | .node label children =>
    ⟨.node label children, above⟩ :: Node.placesIn label above [] children

/-- The places of a row of children, after the siblings `before`. -/
def Node.placesIn (parent : Label) (above : List Level) (before : List Node) :
    List Node → List Place
  | [] => []
  | child :: rest =>
    Node.placesBelow (⟨parent, before, rest⟩ :: above) child ++
      Node.placesIn parent above (child :: before) rest

end

/-- All places of a tree, each before those below it and siblings from left to right. -/
def Node.places (tree : Node) : List Place :=
  tree.placesBelow []

end ModelGrid.Syntax
