import ModelGrid.Proofs.Edit.Anchor
import ModelGrid.Proofs.Syntax.Trivia

/-!
# The first anchor

In a well-formed file, an anchor is at the first construct of its kind, by where the constructs
start, and by how they are nested where they start together.  The anchor of a `return` is in front of
the white space and comments that lead up to it.  The anchor of a function with an arrow is behind
the brace of its body, and if the first such function has no block as its body then there is no
anchor: none of the later ones stands in for it.

## Main results

* `Anchor.offset?_beforeReturn_iff`, `Anchor.offset?_arrowBodyStart_iff`: each anchor by the first
  place of its kind.
* `Anchor.offset?_first`: when a well-formed file has its anchors, and where they are.
-/

namespace ModelGrid.Edit.Anchor

open Syntax Node

variable {file : Document} {offset : Nat}

theorem offset?_beforeReturn_iff (ordered : Ordered file.root) :
    beforeReturn.offset? file = some offset ↔
      ∃ p, file.IsFirst isReturn p ∧ p.leadingStart = offset := by
  change (file.find? isReturn).map Place.leadingStart = some offset ↔ _
  simp only [Option.map_eq_some_iff, Document.find?_eq_some_iff ordered]

theorem offset?_arrowBodyStart_iff (ordered : Ordered file.root) :
    arrowBodyStart.offset? file = some offset ↔
      ∃ p, file.IsFirst isArrow p ∧ bodyStart? p.node = some offset := by
  have eq : arrowBodyStart.offset? file = (file.find? isArrow).bind fun p => bodyStart? p.node := by
    rw [Document.find?, Document.places, Place.preorder_eq_places]
    exact arrowBodyStart?_eq file
  simp only [eq, Option.bind_eq_some_iff, Document.find?_eq_some_iff ordered]

/-- A block in the role of the body opens with its brace. -/
theorem exists_brace (formed : file.WellFormed) {p : Place} (mem : p ∈ file.places) {body : Node}
    (body_eq : p.node.childOf? .body = some body) (block : body.kind = .statementBlock) :
    ∃ brace rest, body.children = brace :: rest ∧ brace.kind = .openBrace := by
  have body_there : body.IsIn file.root :=
    (Place.isIn_of_mem_places mem).node.child (List.mem_of_find?_eq_some body_eq)
  obtain ⟨q, q_mem, rfl⟩ := Document.exists_place body_there
  obtain ⟨brace, first, opens⟩ := Option.map_eq_some_iff.mp (formed.blocks q q_mem block)
  obtain ⟨rest, children_eq⟩ := List.head?_eq_some_iff.mp first
  exact ⟨brace, rest, children_eq, opens⟩

/-- The body of a function opens with a brace if it is a block, and the anchor is behind it. -/
theorem bodyStart?_eq_some_iff (formed : file.WellFormed) {p : Place} (mem : p ∈ file.places) :
    bodyStart? p.node = some offset ↔
      ∃ body brace rest, p.node.childOf? .body = some body ∧ body.kind = .statementBlock ∧
        body.children = brace :: rest ∧ brace.kind = .openBrace ∧ brace.stop = offset := by
  rw [bodyStart?]
  cases found : p.node.childOf? .body with
  | none => simp
  | some body =>
    by_cases block : body.kind = .statementBlock
    · obtain ⟨brace, rest, children_eq, opens⟩ := exists_brace formed mem found block
      simp [block, children_eq, opens]
    · simp [block]

/-- **Each anchor is at the first construct of its kind.**  In a well-formed file there is an anchor
in front of a `return` if and only if there is a `return` statement.  Between the anchor and the
first one there is nothing but white space and comments, and none starts before the anchor.  There
is an anchor in the body of a function with an arrow if and only if the first such function has a
block as its body, and then it is behind the brace that opens this block.  A first one without a
block leaves the file without the anchor. -/
theorem offset?_first (formed : file.WellFormed) :
    ((∃ offset, beforeReturn.offset? file = some offset) ↔
      ∃ p ∈ file.places, isReturn p = true) ∧
    (∀ offset, beforeReturn.offset? file = some offset →
      ∃ p, file.IsFirst isReturn p ∧ offset ≤ p.node.start ∧
        file.TriviaBetween offset p.node.start ∧
        ∀ q ∈ file.places, isReturn q = true → offset ≤ q.node.start) ∧
    ((∃ offset, arrowBodyStart.offset? file = some offset) ↔
      ∃ arrow body, file.IsFirst isArrow arrow ∧ arrow.node.childOf? .body = some body ∧
        body.kind = .statementBlock) ∧
    (∀ offset, arrowBodyStart.offset? file = some offset →
      ∃ arrow body brace rest, file.IsFirst isArrow arrow ∧
        arrow.node.childOf? .body = some body ∧ body.kind = .statementBlock ∧
        body.children = brace :: rest ∧ brace.kind = .openBrace ∧ brace.stop = offset) ∧
    ∀ arrow, file.IsFirst isArrow arrow →
      (∀ body, arrow.node.childOf? .body = some body → body.kind ≠ .statementBlock) →
      arrowBodyStart.offset? file = none := by
  have ordered := formed.ordered
  -- the two statements on functions are both about the brace of the body
  have arrow_iff (offset : Nat) : arrowBodyStart.offset? file = some offset ↔
      ∃ arrow body brace rest, file.IsFirst isArrow arrow ∧
        arrow.node.childOf? .body = some body ∧ body.kind = .statementBlock ∧
        body.children = brace :: rest ∧ brace.kind = .openBrace ∧ brace.stop = offset := by
    rw [offset?_arrowBodyStart_iff ordered]
    constructor
    · rintro ⟨arrow, first, start⟩
      obtain ⟨body, brace, rest, facts⟩ := (bodyStart?_eq_some_iff formed first.mem).mp start
      exact ⟨arrow, body, brace, rest, first, facts⟩
    · rintro ⟨arrow, body, brace, rest, first, facts⟩
      exact ⟨arrow, first, (bodyStart?_eq_some_iff formed first.mem).mpr ⟨body, brace, rest, facts⟩⟩
  refine ⟨?_, fun offset found => ?_, ?_, fun offset => (arrow_iff offset).mp, ?_⟩
  · rw [← Document.exists_isFirst_iff ordered]
    simp only [offset?_beforeReturn_iff ordered]
    exact ⟨fun ⟨_, p, first, _⟩ => ⟨p, first⟩, fun ⟨p, first⟩ => ⟨_, p, first, rfl⟩⟩
  · obtain ⟨p, first, rfl⟩ := (offset?_beforeReturn_iff ordered).mp found
    have lead_le := Place.leadingStart_le (Place.isIn_of_mem_places first.mem) ordered
    exact ⟨p, first, lead_le, formed.triviaBetween first.mem,
      fun q mem pass => Nat.le_trans lead_le (first.start_le q mem pass)⟩
  · constructor
    · rintro ⟨offset, found⟩
      obtain ⟨arrow, body, -, -, first, body_eq, block, -⟩ := (arrow_iff offset).mp found
      exact ⟨arrow, body, first, body_eq, block⟩
    · rintro ⟨arrow, body, first, body_eq, block⟩
      obtain ⟨brace, rest, children_eq, opens⟩ := exists_brace formed first.mem body_eq block
      exact ⟨brace.stop, (arrow_iff _).mpr
        ⟨arrow, body, brace, rest, first, body_eq, block, children_eq, opens, rfl⟩⟩
  · intro arrow first no_block
    rw [Option.eq_none_iff_forall_ne_some]
    intro offset found
    obtain ⟨other, body, -, -, other_first, body_eq, block, -⟩ := (arrow_iff offset).mp found
    rw [other_first.unique ordered first] at body_eq
    exact no_block body body_eq block

set_option maxRecDepth 4000 in
/-- The outer one of nested functions, and a comment in front of the `return`. -/
theorem offset?_first_nested :
    let file := Document.parse "f = (g = () => 1) => \x7b g(); /* a */ return g; \x7d"
    file.WellFormed ∧ beforeReturn.offset? file = some 27 ∧ arrowBodyStart.offset? file = some 22 ∧
      (∃ p, file.IsFirst isReturn p ∧ p.node.start = 36 ∧ file.TriviaBetween 27 36) ∧
      ∃ arrow body, file.IsFirst isArrow arrow ∧ arrow.node.childOf? .body = some body ∧
        body.kind = .statementBlock := by
  intro file
  have file_eq : file = _ := Document.parse_ofList _
  have facts : file.root.checks file.text = true ∧
      (∀ offset < Text.size file.text, (Text.charAt? offset file.text).all isSpace = true ∨
        ∃ p ∈ file.places, p.node.IsToken ∧ p.node.Covers offset) ∧
      (∀ p ∈ file.places, p.node.isExtra = true → p.node.kind = .comment) ∧
      (∀ p ∈ file.places, p.node.kind = .statementBlock →
        p.node.children.head?.map Node.kind = some .openBrace) ∧
      beforeReturn.offset? file = some 27 ∧ arrowBodyStart.offset? file = some 22 ∧
      (file.find? isReturn).map (fun p => p.node.start) = some 36 := by
    rw [file_eq]
    decide +kernel
  obtain ⟨checks, gaps, extras, blocks, return_eq, arrow_eq, return_start⟩ := facts
  have ordered := (Node.wellFormed_of_checks _ checks).ordered
  have formed : file.WellFormed :=
    { ordered, extras, blocks
      gaps := fun offset c found => by
        simpa [found] using gaps offset (Text.lt_size_of_charAt? found) }
  obtain ⟨-, in_front, arrow_iff, -⟩ := offset?_first formed
  obtain ⟨p, first, -, trivia, -⟩ := in_front 27 return_eq
  have start : p.node.start = 36 := by
    rw [(Document.find?_eq_some_iff ordered).mpr first] at return_start
    exact Option.some.inj return_start
  rw [start] at trivia
  exact ⟨formed, return_eq, arrow_eq, ⟨p, first, start, trivia⟩, arrow_iff.mp ⟨22, arrow_eq⟩⟩

end ModelGrid.Edit.Anchor
