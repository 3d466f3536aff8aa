import ModelGrid.Syntax.Kind
import ModelGrid.Text.Offset

/-!
# Syntax trees

A syntax tree covers a text: every node spans a range of bytes, its children lie within that range
in order, and the leaves are the tokens.  Comments are *extra* nodes, which may stand between any
two others without belonging to a construct.

## Main definitions

* `Node`: a tree, with its label of kind, range and role.
* `Node.childOf?`, `Node.constructs`: the child in a role, and the children that are constructs.
* `Node.lastTokenStop`: the end of the last token of a tree, extras apart.
* `Node.Ordered`: the children's ranges are disjoint, in order, and inside their parent's.
* `Node.WellFormed`: ordered, with every range on character boundaries of the text, brackets of one
  byte around arrays, objects and import lists, and no error.
-/

namespace ModelGrid.Syntax

/-- What a node is and where it stands. -/
structure Label where
  kind : Kind
  field : Option Field := none
  /-- A comment, or text that belongs to no construct. -/
  extra : Bool := false
  /-- A token that the text lacks and the tree supplies. -/
  missing : Bool := false
  start : Nat
  stop : Nat
  deriving DecidableEq, Repr

/-- A syntax tree. -/
inductive Node where
  | node (label : Label) (children : List Node)
  deriving Repr

instance : Inhabited Node := ⟨.node { kind := .error, start := 0, stop := 0 } []⟩

namespace Node

def label : Node → Label
  | node label _ => label

def children : Node → List Node
  | node _ children => children

def kind (n : Node) : Kind := n.label.kind

def start (n : Node) : Nat := n.label.start

def stop (n : Node) : Nat := n.label.stop

def isExtra (n : Node) : Bool := n.label.extra

/-- A tree without children. -/
def leaf (kind : Kind) (start stop : Nat) : Node :=
  node { kind, start, stop } []

/-- A token that the text lacks at the offset. -/
def absent (kind : Kind) (offset : Nat) : Node :=
  node { kind, missing := true, start := offset, stop := offset } []

/-- Text that is no construct. -/
def stray (start stop : Nat) : Node :=
  node { kind := .error, extra := true, start, stop } []

/-- The tree over the children, from the start of the first to the end of the last. -/
def branch (kind : Kind) (children : List Node) : Node :=
  node
    { kind
      start := (children.head?.map start).getD 0
      stop := (children.getLast?.map stop).getD 0 }
    children

/-- The tree in the given role. -/
def withField (field : Field) : Node → Node
  | node label children => node { label with field := some field } children

/-- The tree as one of another kind. -/
def withKind (kind : Kind) : Node → Node
  | node label children => node { label with kind } children

/-- Whether the last token of the last child is in the text. -/
def isClosed (n : Node) : Bool :=
  match n.children.getLast?.bind fun last => last.children.getLast? with
  | some token => !token.label.missing
  | none => true

/-- The first child in the role. -/
def childOf? (n : Node) (field : Field) : Option Node :=
  n.children.find? fun child => child.label.field == some field

/-- The children that are constructs, comments left out. -/
def constructs (n : Node) : List Node :=
  n.children.filter fun child => child.kind.isNamed && !child.isExtra

/-- The characters of the text that the tree covers. -/
def chars (n : Node) (text : List Char) : List Char :=
  Text.slice text n.start n.stop

mutual

/-- The end of the last token of the tree: of its last child that is no extra, and so on down. -/
def lastTokenStop : Node → Nat
  | node label children => (lastTokenStopIn children).getD label.stop

/-- The end of the last token in a row of trees, if one of them is no extra. -/
def lastTokenStopIn : List Node → Option Nat
  | [] => none
  | child :: rest =>
    match lastTokenStopIn rest with
    | some stop => some stop
    | none => if child.isExtra then none else some child.lastTokenStop

end

mutual

/-- The number of nodes of the tree. -/
def count : Node → Nat
  | node _ children => countIn children + 1

/-- The number of nodes of a row of trees. -/
def countIn : List Node → Nat
  | [] => 0
  | child :: rest => child.count + countIn rest

end

/-- The ranges of a row of trees follow one another between two offsets. -/
def InOrder (lower upper : Nat) : List Node → Prop
  | [] => lower ≤ upper
  | child :: rest => lower ≤ child.start ∧ child.start ≤ child.stop ∧ InOrder child.stop upper rest

/-- Throughout the tree, the ranges of the children are disjoint, in order, and inside the range
of their parent. -/
inductive Ordered : Node → Prop
  | node (label : Label) (children : List Node) (le : label.start ≤ label.stop)
      (inOrder : InOrder label.start label.stop children)
      (each : ∀ child ∈ children, Ordered child) : Ordered (node label children)

/-- The node is a token the text lacks, or text that is no construct. -/
def isFault (n : Node) : Bool :=
  n.kind == .error || n.label.missing

mutual

/-- Whether the tree has a node that stands for an error in the text. -/
def hasFault : Node → Bool
  | node label children => isFault (node label children) || hasFaultIn children

def hasFaultIn : List Node → Bool
  | [] => false
  | child :: rest => child.hasFault || hasFaultIn rest

end

/-- The first and the last child are brackets of one byte at the two ends of the node. -/
def Bracketed (n : Node) : Prop :=
  ∃ first last inner, n.children = first :: inner ++ [last] ∧
    first.start = n.start ∧ first.stop = n.start + 1 ∧
    last.stop = n.stop ∧ last.start + 1 = n.stop ∧
    !first.kind.isNamed ∧ !last.kind.isNamed

/-- A tree of the text without errors: ordered, with every range cut on character boundaries, and
with brackets around arrays, objects and import lists. -/
inductive WellFormed (text : List Char) : Node → Prop
  | node (label : Label) (children : List Node) (le : label.start ≤ label.stop)
      (inOrder : InOrder label.start label.stop children)
      (startBoundary : Text.IsBoundary text label.start)
      (stopBoundary : Text.IsBoundary text label.stop)
      (sound : isFault (node label children) = false)
      (bracketed : label.kind = .array ∨ label.kind = .object ∨ label.kind = .namedImports →
        Bracketed (node label children))
      (each : ∀ child ∈ children, WellFormed text child) : WellFormed text (node label children)

end Node

end ModelGrid.Syntax
