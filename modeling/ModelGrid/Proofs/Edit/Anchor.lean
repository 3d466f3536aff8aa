import ModelGrid.Edit.Anchor
import ModelGrid.Proofs.Syntax.Place

/-!
# Searching for anchors

An anchor is the first node of a kind in document order.  In a tree of which most is known only to
have no node of that kind, the search is decided along the branch that leads to the node: each step
passes over the children in front of it.

## Main definitions

* `Anchor.Finds`: a search in a tree comes first to a place with a property.

## Main results

* `Anchor.Finds.branch`: one step of the branch.
* `Anchor.finds_return`, `Anchor.finds_arrow`: the ends of the branches.
* `Anchor.offset?_beforeReturn`, `Anchor.offset?_arrowBodyStart`: the anchors of a text, by the tree
  that the grammar makes of its tokens.
-/

namespace ModelGrid.Edit.Anchor

open Syntax

/-- No anchor is searched by nodes of the kind. -/
def passesOver (kind : Kind) : Bool :=
  kind != .returnKeyword && kind != .arrowFunction

/-- The place is the keyword of a `return` statement. -/
def isReturn (place : Place) : Bool :=
  place.node.kind == .returnKeyword && place.parentKind? == some .returnStatement

/-- The place is a function with an arrow. -/
def isArrow (place : Place) : Bool :=
  place.node.kind == .arrowFunction

/-- Behind the brace that opens the body of a function. -/
def bodyStart? (arrow : Node) : Option Nat :=
  match arrow.childOf? .body with
  | none => none
  | some body =>
    if body.kind == .statementBlock then
      match body.children with
      | brace :: _ => if brace.kind == .openBrace then some brace.stop else none
      | [] => none
    else none

theorem beforeReturn?_eq (file : Document) :
    beforeReturn? file = (file.root.places.find? isReturn).map Place.leadingStart := by
  rw [beforeReturn?, Document.find?, Document.places, Place.preorder_eq_places]
  rfl

/-- Behind the brace that opens the body of a place found. -/
def arrowStart? : Option Place → Option Nat
  | none => none
  | some arrow => bodyStart? arrow.node

theorem arrowBodyStart?_eq (file : Document) :
    arrowBodyStart? file = (file.root.places.find? isArrow).bind fun p => bodyStart? p.node := by
  rw [arrowBodyStart?, Document.find?, Document.places, Place.preorder_eq_places]
  change arrowStart? (file.root.places.find? isArrow) = _
  cases file.root.places.find? isArrow <;> rfl

/-! ### Searching along a branch -/

/-- In a tree, whatever else its label says and wherever it stands, a search comes first to a place
with the property. -/
def Finds (found : Place → Bool) (good : Place → Prop) (n : Node) : Prop :=
  ∀ label, label.kind = n.kind → ∀ above, ∃ p,
    ((Node.node label n.children).placesBelow above).find? found = some p ∧ good p

variable {found : Place → Bool} {good : Place → Prop}

theorem Finds.withField {n : Node} (finds : Finds found good n) (field : Field) :
    Finds found good (n.withField field) := by
  obtain ⟨label, children⟩ := n
  exact finds

theorem Finds.find?_eq {n : Node} (finds : Finds found good n) (above : List Level) :
    ∃ p, (n.placesBelow above).find? found = some p ∧ good p := by
  obtain ⟨label, children⟩ := n
  exact finds label rfl above

/-- What is found only among nodes that anchors are searched by. -/
def Searches (found : Place → Bool) : Prop :=
  ∀ p, found p = true → passesOver p.node.kind = false

theorem searches_isReturn : Searches isReturn := by
  intro p hit
  have kind : p.node.kind = .returnKeyword := by
    simp only [isReturn, Bool.and_eq_true, beq_iff_eq] at hit
    exact hit.1
  rw [kind]
  rfl

theorem searches_isArrow : Searches isArrow := by
  intro p hit
  have kind : p.node.kind = .arrowFunction := by simpa [isArrow] using hit
  rw [kind]
  rfl

/-- A search passes over children that have nothing it searches for. -/
theorem find?_placesIn_append (searches : Searches found) {front : List Node}
    (all : Node.allKindsIn passesOver front = true) (rest : List Node) (parent : Label)
    (above : List Level) (before : List Node) :
    (Node.placesIn parent above before (front ++ rest)).find? found =
      (Node.placesIn parent above (front.reverse ++ before) rest).find? found := by
  induction front generalizing before with
  | nil => rfl
  | cons other front ih =>
    obtain ⟨here, later⟩ := Bool.and_eq_true_iff.mp all
    rw [List.cons_append, Node.placesIn, List.find?_append,
      Node.find?_placesBelow_eq_none here searches, Option.none_or, ih later]
    simp

/-- A search comes to what it finds in a child if it passes over all in front of it. -/
theorem Finds.branch (searches : Searches found) {child : Node} (finds : Finds found good child)
    {kind : Kind} (passed : passesOver kind = true) (front back : List Node)
    (all : Node.allKindsIn passesOver front = true) :
    Finds found good (.branch kind (front ++ child :: back)) := by
  intro label same above
  obtain ⟨p, first, holds⟩ := finds.find?_eq (⟨label, front.reverse, back⟩ :: above)
  refine ⟨p, ?_, holds⟩
  have children : (Node.placesIn label above [] (front ++ child :: back)).find? found = some p := by
    rw [find?_placesIn_append searches all, List.append_nil, Node.placesIn, List.find?_append, first]
    rfl
  rw [Node.placesBelow, List.find?_cons_of_neg]
  · exact children
  · intro hit
    have miss : passesOver label.kind = false := searches _ hit
    rw [same, show passesOver (Node.branch kind (front ++ child :: back)).kind = true from passed] at miss
    cases miss

/-- In a block, the keyword of a `return` is found where the statement in front of it ends. -/
theorem finds_return {front : List Node} {last : Node}
    (front_over : Node.allKindsIn passesOver front = true)
    (last_over : last.allKinds passesOver = true) (no_extra : last.isExtra = false)
    (start stop : Nat) (more back : List Node) :
    Finds isReturn (fun p => p.leadingStart = last.lastTokenStop)
      (.branch .statementBlock
        (front ++ last ::
          .branch .returnStatement (.leaf .returnKeyword start stop :: more) :: back)) := by
  intro label same above
  have last_none := Node.find?_placesBelow_eq_none last_over searches_isReturn
  have block : label.kind = .statementBlock := same
  have not_block (children : List Node) : isReturn ⟨.node label children, above⟩ = false := by
    simp [isReturn, Node.kind, Node.label, block]
  rw [Node.placesBelow, List.find?_cons_of_neg (by simp [not_block])]
  show ∃ p, (Node.placesIn label above [] (front ++ _)).find? isReturn = some p ∧ _
  rw [find?_placesIn_append searches_isReturn front_over]
  simp [Node.branch, Node.leaf, Node.placesBelow, Node.placesIn, last_none, isReturn,
    Place.parentKind?, Node.kind, Node.label, Place.leadingStart, Place.leadingStartBelow, no_extra]

/-- A function with an arrow is found itself. -/
theorem finds_arrow {arrow : Node} (kind : arrow.kind = .arrowFunction) {offset : Nat}
    (body : bodyStart? arrow = some offset) :
    Finds isArrow (fun p => bodyStart? p.node = some offset) arrow := by
  obtain ⟨own, children⟩ := arrow
  intro label same above
  refine ⟨⟨.node label children, above⟩, ?_, body⟩
  have hit : isArrow ⟨.node label children, above⟩ = true := by
    show (label.kind == Kind.arrowFunction) = true
    rw [same, kind]
    rfl
  exact List.find?_cons_of_pos hit

/-- The body of a function is its first child in that role. -/
theorem bodyStart?_branch {front : List Node} (no_body : ∀ n ∈ front, n.label.field ≠ some .body)
    (start stop : Nat) (more : List Node) :
    bodyStart?
        (.branch .arrowFunction
          (front ++
            [(Node.branch .statementBlock (.leaf .openBrace start stop :: more)).withField .body])) =
      some stop := by
  have body :
      (Node.branch .arrowFunction
          (front ++
            [(Node.branch .statementBlock (.leaf .openBrace start stop :: more)).withField .body])).childOf?
          .body =
        some ((Node.branch .statementBlock (.leaf .openBrace start stop :: more)).withField .body) := by
    have none : front.find? (fun child => child.label.field == some .body) = none := by
      rw [List.find?_eq_none]
      intro n mem hit
      exact no_body n mem (beq_iff_eq.mp hit)
    show (front ++ [_]).find? _ = _
    rw [List.find?_append, none]
    rfl
  rw [bodyStart?, body]
  rfl

/-! ### Anchors of a text -/

section Parse

variable {text : String} {tokens : List Token} (scan : Token.scan text.toList = (tokens, []))
  {offset : Nat}

include scan

/-- What a search comes to in the tree of the tokens, it comes to in the text. -/
theorem find?_places_parse (finds : Finds found good (Grammar.program tokens)) :
    ∃ p, (Document.parse text).root.places.find? found = some p ∧ good p := by
  rw [Document.parse_of_scan scan]
  exact finds { (Grammar.program tokens).label with start := 0, stop := Text.size text.toList } rfl []

/-- The anchor in front of the first `return`. -/
theorem offset?_beforeReturn
    (finds : Finds isReturn (fun p => p.leadingStart = offset) (Grammar.program tokens)) :
    beforeReturn.offset? (Document.parse text) = some offset := by
  obtain ⟨p, first, lead⟩ := find?_places_parse scan finds
  rw [offset?, beforeReturn?_eq, first, Option.map_some, lead]

/-- The anchor behind the brace of the first function with an arrow. -/
theorem offset?_arrowBodyStart
    (finds : Finds isArrow (fun p => bodyStart? p.node = some offset) (Grammar.program tokens)) :
    arrowBodyStart.offset? (Document.parse text) = some offset := by
  obtain ⟨p, first, body⟩ := find?_places_parse scan finds
  rw [offset?, arrowBodyStart?_eq, first, Option.bind_some, body]

end Parse

end ModelGrid.Edit.Anchor
