import ModelGrid.Proofs.Syntax.GrammarKeeping
import ModelGrid.Proofs.Syntax.Head
import ModelGrid.Proofs.Syntax.Range

/-!
# Edges of a parsed tree

Where a node of the tree of a text begins or ends, a token or a comment does, or the text
(`Document.edge_of_scan`).  So a place that no token and no comment begins or ends at is no edge of
the tree, whatever the text means to the grammar.

## Main definitions

* `Node.EdgesIn`: all nodes of a tree begin and end at offsets with a property.

## Main results

* `Document.edge_of_scan`: the edges of the tree of a text.
-/

namespace ModelGrid.Syntax

open Phrase

variable {E : Nat → Prop}

namespace Node

/-- All nodes of the tree begin and end at offsets with the property. -/
def EdgesIn (E : Nat → Prop) (n : Node) : Prop :=
  ∀ x : Node, x.IsIn n → E x.start ∧ E x.stop

theorem edgesIn_iff {n : Node} :
    EdgesIn E n ↔ (E n.start ∧ E n.stop) ∧ ∀ child ∈ n.children, EdgesIn E child := by
  constructor
  · intro all
    exact ⟨all n (.refl n), fun child mem x there => all x (there.trans (isIn_of_mem_children mem))⟩
  · rintro ⟨here, below⟩ x ⟨way, leads⟩
    cases way with
    | nil =>
      cases leads
      exact here
    | cons i way =>
      obtain ⟨child, there, leads⟩ := Option.bind_eq_some_iff.mp leads
      exact below child (List.mem_of_getElem? there) x ⟨way, leads⟩

theorem edgesIn_leaf {label : Label} (start : E label.start) (stop : E label.stop) :
    EdgesIn E (node label []) :=
  edgesIn_iff.mpr ⟨⟨start, stop⟩, List.forall_mem_nil _⟩

theorem EdgesIn.stop_getLast? {nodes : List Node} (zero : E 0) (all : ∀ n ∈ nodes, EdgesIn E n) :
    E ((nodes.getLast?.map stop).getD 0) := by
  cases last : nodes.getLast? with
  | none => exact zero
  | some n => exact (all n (List.mem_of_getLast? last) n (.refl n)).2

theorem EdgesIn.branch {nodes : List Node} (zero : E 0) (all : ∀ n ∈ nodes, EdgesIn E n)
    (kind : Kind) : EdgesIn E (.branch kind nodes) := by
  refine edgesIn_iff.mpr ⟨⟨?_, EdgesIn.stop_getLast? zero all⟩, all⟩
  cases nodes with
  | nil => exact zero
  | cons n rest => exact (all n List.mem_cons_self n (.refl n)).1

theorem EdgesIn.withField {n : Node} (all : EdgesIn E n) (field : Field) :
    EdgesIn E (n.withField field) := by
  cases n
  exact edgesIn_iff.mpr (edgesIn_iff.mp all :)

theorem EdgesIn.withKind {n : Node} (all : EdgesIn E n) (kind : Kind) :
    EdgesIn E (n.withKind kind) := by
  cases n
  exact edgesIn_iff.mpr (edgesIn_iff.mp all :)

mutual

theorem EdgesIn.asPattern : ∀ n : Node, EdgesIn E n → EdgesIn E n.asPattern
  | .node label children, all => by
    obtain ⟨here, below⟩ := edgesIn_iff.mp all
    have below' := EdgesIn.asPatterns children below
    rw [Node.asPattern]
    split <;> first
      | exact edgesIn_iff.mpr ⟨here, below'⟩
      | exact edgesIn_iff.mpr ⟨here, below⟩

theorem EdgesIn.asPatterns : ∀ nodes : List Node, (∀ n ∈ nodes, EdgesIn E n) →
    ∀ n ∈ Node.asPatterns nodes, EdgesIn E n
  | [], _ => List.forall_mem_nil _
  | child :: rest, all => by
    obtain ⟨first, later⟩ := List.forall_mem_cons.mp all
    exact List.forall_mem_cons.mpr
      ⟨EdgesIn.asPattern child first, EdgesIn.asPatterns rest later⟩

end

/-! ### Comments -/

theorem edgesIn_toNode {comments : List Comment}
    (all : ∀ comment ∈ comments, E comment.start ∧ E comment.stop) :
    ∀ n ∈ comments.map Comment.toNode, EdgesIn E n :=
  List.forall_mem_map.mpr fun comment mem =>
    edgesIn_leaf (all comment mem).1 (all comment mem).2

mutual

/-- Comments that are put into a tree bring their own edges along. -/
theorem EdgesIn.addComments (text : List Char) (zero : E 0) :
    ∀ (n : Node) (comments : List Comment), EdgesIn E n →
      (∀ comment ∈ comments, E comment.start ∧ E comment.stop) →
        EdgesIn E (n.addComments text comments)
  | .node label children, comments, all, comments_all => by
    obtain ⟨here, below⟩ := edgesIn_iff.mp all
    have last : E ((comments.getLast?.map Comment.stop).getD 0) := by
      cases found : comments.getLast? with
      | none => exact zero
      | some comment => exact (comments_all comment (List.mem_of_getLast? found)).2
    rw [Node.addComments]
    refine edgesIn_iff.mpr ⟨⟨here.1, ?_⟩,
      EdgesIn.addCommentsIn text zero children comments below comments_all⟩
    show E (max _ _)
    rcases Nat.le_total label.stop ((comments.getLast?.map Comment.stop).getD 0) with le | le
    · rwa [Nat.max_eq_right le]
    · rw [Nat.max_eq_left le]
      exact here.2

theorem EdgesIn.addCommentsIn (text : List Char) (zero : E 0) :
    ∀ (children : List Node) (comments : List Comment), (∀ n ∈ children, EdgesIn E n) →
      (∀ comment ∈ comments, E comment.start ∧ E comment.stop) →
        ∀ n ∈ Node.addCommentsIn text comments children, EdgesIn E n
  | [], comments, _, comments_all => edgesIn_toNode comments_all
  | child :: rest, comments, all, comments_all => by
    obtain ⟨first, others⟩ := List.forall_mem_cons.mp all
    rw [Node.addCommentsIn]
    simp only [List.span_eq_takeWhile_dropWhile]
    have within {some : List Comment} (sub : some ⊆ comments) :
        ∀ comment ∈ some, E comment.start ∧ E comment.stop :=
      fun comment mem => comments_all comment (sub mem)
    have later : comments.dropWhile (fun comment => comment.start < child.start) ⊆ comments :=
      (List.dropWhile_suffix _).subset
    refine List.forall_mem_append.mpr ⟨edgesIn_toNode
      (within (List.takeWhile_prefix _).subset), List.forall_mem_cons.mpr ⟨?_, ?_⟩⟩
    · refine EdgesIn.addComments text zero child _ first (List.forall_mem_append.mpr ⟨?_, ?_⟩)
      · exact within (List.Subset.trans (List.takeWhile_prefix _).subset later)
      · exact within (List.Subset.trans (List.take_subset _ _)
          (List.Subset.trans (List.dropWhile_suffix _).subset later))
    · exact EdgesIn.addCommentsIn text zero rest _ others
        (within (List.Subset.trans (List.drop_subset _ _)
          (List.Subset.trans (List.dropWhile_suffix _).subset later)))

end

end Node

open Node

/-! ### What the grammar makes -/

/-- Nodes have the edges of the tokens that they are made of. -/
theorem builds_edgesIn (zero : E 0) : Builds (fun t => E t.start ∧ E t.stop) (EdgesIn E) where
  leaf _ _ _ ends := edgesIn_leaf ends.1 ends.2
  stray _ ends := edgesIn_leaf ends.1 ends.2
  sign _ _ first last := edgesIn_leaf first.1 last.2
  absent _ all := edgesIn_leaf (EdgesIn.stop_getLast? zero all) (EdgesIn.stop_getLast? zero all)
  branch kind _ _ all := EdgesIn.branch zero all kind
  withField field _ all := all.withField field
  asError _ all := all.withKind .error
  asPattern n all := EdgesIn.asPattern n all

/-- The tree of a text spans it. -/
theorem Document.range_parse (text : String) :
    (parse text).root.start = 0 ∧ (parse text).root.stop = Text.size text.toList := by
  rw [parse]
  obtain ⟨tokens, comments⟩ := Token.scan text.toList
  dsimp only
  cases (Grammar.program tokens).addComments text.toList comments
  exact ⟨rfl, rfl⟩

/-- **The edges of the tree of a text** are those of its tokens and comments, and its ends. -/
theorem Document.edge_of_scan {text : String} (zero : E 0) (whole : E (Text.size text.toList))
    (tokens : ∀ t ∈ (Token.scan text.toList).1, E t.start ∧ E t.stop)
    (comments : ∀ c ∈ (Token.scan text.toList).2, E c.start ∧ E c.stop) {offset : Nat}
    (edge : IsEdge (parse text).root offset) : E offset := by
  have builds := builds_edgesIn zero
  have buildsImports : BuildsImports (fun t => E t.start ∧ E t.stop) (EdgesIn E) :=
    Rules.buildsImports_of_branch fun _ all => EdgesIn.branch zero all _
  have children := EdgesIn.addCommentsIn text.toList zero _ _
    (Grammar.forall_mem_children_program tokens) comments
  rw [← children_parse] at children
  obtain ⟨start, stop⟩ := range_parse text
  have root : EdgesIn E (parse text).root :=
    edgesIn_iff.mpr ⟨⟨start ▸ zero, stop ▸ whole⟩, children⟩
  rcases edge with rfl | ⟨x, there, rfl | rfl⟩
  · exact zero
  · exact (root x there).1
  · exact (root x there).2

end ModelGrid.Syntax
