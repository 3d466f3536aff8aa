import ModelGrid.Syntax.Document
import Mathlib.Data.List.Basic

/-!
# The places of a tree

The cursor's walk is bounded by the number of nodes and finds its way by siblings and parents; the
places of a tree are defined by recursion on it.  Both give the same places in the same order, so a
search of a file is decided child by child.  What carries the induction is `placesFrom`: the places
below a place together with those that the cursor comes to after them.

## Main definitions

* `Place.placesFrom`: the places from a place on.
* `Node.allKinds`: every node of a tree is of a kind that passes a test.
* `Document.ofChars`: the file of characters.

## Main results

* `Place.preorder_eq_places`: the cursor visits the places of a tree, each once.
* `Node.addComments_nil`: without comments a tree stays as it is.
* `Document.parse_of_scan`: the file of a text without comments.
-/

namespace ModelGrid.Syntax

/-! ### The cursor's walk -/

namespace Place

/-- The places that the cursor comes to after those of a node: of its later siblings, then of its
parent's later siblings, and so on up. -/
def placesAfter (n : Node) : List Level → List Place
  | [] => []
  | ⟨parent, before, after⟩ :: above =>
    Node.placesIn parent above (n :: before) after ++
      placesAfter (.node parent (before.reverse ++ n :: after)) above

/-- The places from a place on. -/
def placesFrom (p : Place) : List Place :=
  p.node.placesBelow p.above ++ placesAfter p.node p.above

theorem placesAfter_eq (n : Node) (above : List Level) :
    placesAfter n above =
      match climb n above with
      | none => []
      | some next => next.placesFrom := by
  induction above generalizing n with
  | nil => rfl
  | cons level above ih =>
    obtain ⟨parent, before, after⟩ := level
    cases after with
    | nil =>
      rw [placesAfter, Node.placesIn, List.nil_append, ih]
      rfl
    | cons next rest => simp [placesAfter, climb, nextSibling?, placesFrom, Node.placesIn]

theorem placesFrom_eq (p : Place) :
    p.placesFrom =
      p :: match p.next? with
        | none => []
        | some next => next.placesFrom := by
  obtain ⟨⟨label, children⟩, above⟩ := p
  cases children with
  | nil =>
    rw [placesFrom, placesAfter_eq]
    rfl
  | cons child rest =>
    simp [placesFrom, Node.placesBelow, Node.placesIn, next?, firstChild?, Node.children, placesAfter,
      Node.label]

theorem visits_eq_take (fuel : Nat) (p : Place) : visits fuel p = p.placesFrom.take fuel := by
  induction fuel generalizing p with
  | zero => rfl
  | succ fuel ih =>
    rw [visits, placesFrom_eq, List.take_succ_cons]
    cases p.next? with
    | none => simp
    | some next => simp [ih]

end Place

namespace Node

mutual

theorem length_placesBelow (above : List Level) :
    ∀ n : Node, (n.placesBelow above).length = n.count
  | .node label children => by
    rw [placesBelow, List.length_cons, length_placesIn, count]

theorem length_placesIn (parent : Label) (above : List Level) :
    ∀ before children : List Node,
      (placesIn parent above before children).length = countIn children
  | _, [] => rfl
  | before, child :: rest => by
    rw [placesIn, List.length_append, length_placesBelow, length_placesIn, countIn]

end

end Node

/-- **The cursor visits the places of a tree**, each once and in the order of their definition. -/
theorem Place.preorder_eq_places (tree : Node) : preorder tree = tree.places := by
  rw [preorder, visits_eq_take, placesFrom, root, placesAfter, List.append_nil, Node.places,
    ← Node.length_placesBelow [] tree, List.take_length]

/-! ### The children of a place -/

namespace Place

theorem map_node_constructsFrom (parent : Label) (above : List Level) (before children : List Node) :
    (constructsFrom parent above before children).map node =
      children.filter fun child => child.kind.isNamed && !child.isExtra := by
  induction children generalizing before with
  | nil => rfl
  | cons child rest ih =>
    rw [constructsFrom, List.filter_cons]
    split
    next => rw [List.map_cons, ih]
    next => exact ih _

/-- The places of the constructs of a node are those of its constructs. -/
theorem map_node_constructs (p : Place) : p.constructs.map node = p.node.constructs :=
  map_node_constructsFrom p.node.label p.above [] p.node.children

theorem map_node_childOfFrom (field : Field) (parent : Label) (above : List Level)
    (before children : List Node) :
    (childOfFrom field parent above before children).map node =
      children.find? fun child => child.label.field == some field := by
  induction children generalizing before with
  | nil => rfl
  | cons child rest ih =>
    rw [childOfFrom, List.find?_cons]
    cases (child.label.field == some field) with
    | true => rfl
    | false => exact ih _

/-- The place of the child in a role is that of the child in this role. -/
theorem map_node_childOf? (p : Place) (field : Field) :
    (p.childOf? field).map node = p.node.childOf? field :=
  map_node_childOfFrom field p.node.label p.above [] p.node.children

end Place

/-! ### Trees without some kinds -/

namespace Node

mutual

/-- Every node of the tree is of a kind that passes the test. -/
def allKinds (passes : Kind → Bool) : Node → Bool
  | node label children => passes label.kind && allKindsIn passes children

/-- Every node of a row of trees is of a kind that passes the test. -/
def allKindsIn (passes : Kind → Bool) : List Node → Bool
  | [] => true
  | child :: rest => child.allKinds passes && allKindsIn passes rest

end

variable {passes : Kind → Bool}

@[simp] theorem allKinds_leaf (kind : Kind) (start stop : Nat) :
    (leaf kind start stop).allKinds passes = passes kind := by
  simp [leaf, allKinds, allKindsIn]

@[simp] theorem allKinds_branch (kind : Kind) (children : List Node) :
    (branch kind children).allKinds passes = (passes kind && allKindsIn passes children) := by
  simp [branch, allKinds]

@[simp] theorem allKinds_withField (field : Field) (n : Node) :
    (n.withField field).allKinds passes = n.allKinds passes := by
  obtain ⟨label, children⟩ := n
  simp [withField, allKinds]

@[simp] theorem allKindsIn_nil : allKindsIn passes [] = true := rfl

@[simp] theorem allKindsIn_cons (child : Node) (rest : List Node) :
    allKindsIn passes (child :: rest) = (child.allKinds passes && allKindsIn passes rest) := rfl

@[simp] theorem allKindsIn_append (front back : List Node) :
    allKindsIn passes (front ++ back) = (allKindsIn passes front && allKindsIn passes back) := by
  induction front with
  | nil => rfl
  | cons child front ih => rw [List.cons_append, allKindsIn, allKindsIn, ih, Bool.and_assoc]

mutual

theorem passes_of_mem_placesBelow (above : List Level) :
    ∀ n : Node, n.allKinds passes = true → ∀ p ∈ n.placesBelow above, passes p.node.kind = true
  | .node label children, all, p, mem => by
    obtain ⟨here, below⟩ := Bool.and_eq_true_iff.mp all
    rcases List.mem_cons.mp mem with rfl | mem
    · exact here
    · exact passes_of_mem_placesIn label above [] children below p mem

theorem passes_of_mem_placesIn (parent : Label) (above : List Level) :
    ∀ before children : List Node, allKindsIn passes children = true →
      ∀ p ∈ placesIn parent above before children, passes p.node.kind = true
  | _, [], _, p, mem => nomatch mem
  | before, child :: rest, all, p, mem => by
    obtain ⟨here, later⟩ := Bool.and_eq_true_iff.mp all
    rcases List.mem_append.mp mem with mem | mem
    · exact passes_of_mem_placesBelow _ child here p mem
    · exact passes_of_mem_placesIn parent above _ rest later p mem

end

theorem allKindsIn_eq_true {children : List Node} :
    allKindsIn passes children = true ↔ ∀ child ∈ children, child.allKinds passes = true := by
  induction children with
  | nil => simp
  | cons child rest ih => simp [ih]

/-- A search for a kind that a tree does not have finds nothing in it. -/
theorem find?_placesBelow_eq_none {found : Place → Bool} {n : Node}
    (all : n.allKinds passes = true) (other : ∀ p, found p = true → passes p.node.kind = false)
    (above : List Level) : (n.placesBelow above).find? found = none := by
  rw [List.find?_eq_none]
  intro p mem hit
  have pass := passes_of_mem_placesBelow above n all p mem
  rw [other p hit] at pass
  cases pass

/-! ### Trees without comments -/

mutual

/-- Without comments a tree stays as it is. -/
theorem addComments_nil (text : List Char) : ∀ n : Node, n.addComments text [] = n
  | .node label children => by
    rw [addComments, addCommentsIn_nil text children]
    simp

theorem addCommentsIn_nil (text : List Char) :
    ∀ children : List Node, addCommentsIn text [] children = children
  | [] => rfl
  | child :: rest => by
    rw [addCommentsIn]
    show child.addComments text [] :: addCommentsIn text [] rest = child :: rest
    rw [addComments_nil text child, addCommentsIn_nil text rest]

end

end Node

theorem Document.text_parse (text : String) : (parse text).text = text.toList := by
  rw [parse]
  dsimp only
  split
  rfl

/-- The file of a text that is given by its characters. -/
def Document.ofChars (chars : List Char) : Document :=
  let (tokens, comments) := Token.scan chars
  let .node label children := (Grammar.program tokens).addComments chars comments
  ⟨chars, .node { label with start := 0, stop := Text.size chars } children⟩

/-- A text need not be decoded to read it, as it would be where a file is evaluated. -/
theorem Document.parse_ofList (chars : List Char) :
    Document.parse (String.ofList chars) = ofChars chars := by
  rw [parse, String.toList_ofList]
  rfl

/-- The file of a text without comments: the tree of its tokens, over the whole text. -/
theorem Document.parse_of_scan {text : String} {tokens : List Token}
    (scan : Token.scan text.toList = (tokens, [])) :
    Document.parse text =
      ⟨text.toList,
        .node { (Grammar.program tokens).label with start := 0, stop := Text.size text.toList }
          (Grammar.program tokens).children⟩ := by
  rw [Document.parse, scan]
  dsimp only
  rw [Node.addComments_nil]
  cases Grammar.program tokens
  rfl

end ModelGrid.Syntax
