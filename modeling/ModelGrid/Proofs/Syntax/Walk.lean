import ModelGrid.Proofs.Syntax.Range
import Mathlib.Data.List.Lex

/-!
# The walk of a cursor

A cursor knows the node it is at, and moves to the first child, to the next sibling and to the parent.
It walks by two loops, one inside the other: from a node it goes down to the first child; where there
is none, it goes on to the next sibling, or else up until there is one, and it stops when it comes out
of the tree.  `Climbs` and `Walks` are these loops with nothing that bounds them, so that a walk they
relate to a list is one that ends.

That it ends is an induction on the places that the cursor has still to come to, which are one less
with each place visited.  Those places, `placesFrom`, are what the walk yields; from the root they are
all places of the tree.

What order that is can be said by the ways down to the places alone: the way to a node goes on to
what is below it, and the ways to two children differ in one index.

## Main definitions

* `Place.Climbs`: the inner loop, from a place without children to the next place.
* `Place.Walks`: the outer loop, from a place to the list of the places that are visited.
* `Node.ListsPlaces`: being a list of all places of a tree in pre-order.

## Main results

* `Place.walks_iff`: the walk ends, with the places from its start on.
* `Node.listsPlaces_places`: the places of a tree, by recursion, are listed in pre-order.
* `Document.walks_places`: the walk from the root lists the tree, and a search takes the first place.
-/

namespace ModelGrid.Syntax

/-! ### The way down to a place -/

namespace Place

open Node

mutual

/-- A place below another one has a way down that goes on from there. -/
theorem exists_way_of_mem_placesBelow (above : List Level) :
    ∀ n : Node, ∀ p ∈ n.placesBelow above,
      ∃ way, wayTo p.above = wayTo above ++ way ∧ below? way n = some p.node
  | .node label children, p, mem => by
    rcases List.mem_cons.mp mem with rfl | mem
    · exact ⟨[], by simp, rfl⟩
    · obtain ⟨i, way, child, there, way_eq, leads⟩ :=
        exists_way_of_mem_placesIn label above [] children p mem
      exact ⟨i :: way, by simpa using way_eq, by rw [below?, Node.children, there]; exact leads⟩

theorem exists_way_of_mem_placesIn (parent : Label) (above : List Level) :
    ∀ before children : List Node, ∀ p ∈ placesIn parent above before children,
      ∃ i way child, children[i]? = some child ∧
        wayTo p.above = wayTo above ++ (before.length + i) :: way ∧ below? way child = some p.node
  | _, [], p, mem => by simp [placesIn] at mem
  | before, child :: rest, p, mem => by
    rcases List.mem_append.mp mem with mem | mem
    · obtain ⟨way, way_eq, leads⟩ := exists_way_of_mem_placesBelow _ child p mem
      exact ⟨0, way, child, rfl, by simp [way_eq, wayTo], leads⟩
    · obtain ⟨i, way, next, there, way_eq, leads⟩ :=
        exists_way_of_mem_placesIn parent above (child :: before) rest p mem
      refine ⟨i + 1, way, next, there, ?_, leads⟩
      rw [way_eq, List.length_cons, Nat.add_assoc, Nat.add_comm 1 i]

end

/-- The places of a row of children are among them those below each child. -/
theorem exists_placesBelow_subset (parent : Label) (above : List Level) {child : Node} {i : Nat}
    {children : List Node} (before : List Node) (there : children[i]? = some child) :
    ∃ level, level.before.length = before.length + i ∧
      child.placesBelow (level :: above) ⊆ placesIn parent above before children := by
  induction children generalizing before i with
  | nil => simp at there
  | cons first rest ih =>
    cases i with
    | zero =>
      cases there
      exact ⟨⟨parent, before, rest⟩, rfl, List.subset_append_left _ _⟩
    | succ i =>
      obtain ⟨level, length_eq, sub⟩ := ih (first :: before) there
      refine ⟨level, ?_, List.subset_append_of_subset_right _ sub⟩
      rw [length_eq, List.length_cons, Nat.add_assoc, Nat.add_comm 1 i]

/-- Every way down leads to a place. -/
theorem exists_mem_placesBelow {x n : Node} {way : List Nat} (above : List Level)
    (leads : below? way n = some x) :
    ∃ p ∈ n.placesBelow above, wayTo p.above = wayTo above ++ way ∧ p.node = x := by
  induction way generalizing n above with
  | nil =>
    cases leads
    obtain ⟨label, children⟩ := x
    exact ⟨_, List.mem_cons_self, by simp, rfl⟩
  | cons i way ih =>
    obtain ⟨label, children⟩ := n
    obtain ⟨child, there, leads⟩ := Option.bind_eq_some_iff.mp leads
    obtain ⟨level, length_eq, sub⟩ := exists_placesBelow_subset label above [] there
    obtain ⟨p, mem, way_eq, node_eq⟩ := ih (level :: above) leads
    refine ⟨p, List.mem_cons_of_mem _ (sub mem), ?_, node_eq⟩
    rw [way_eq, wayTo, length_eq, List.append_assoc, List.length_nil, Nat.zero_add,
      List.singleton_append]

/-! ### The order of the places -/

/-- Of two ways that part, the lesser one goes to the child with the lower index. -/
theorem le_of_append_cons_lt {way v w : List Nat} {i j : Nat}
    (less : way ++ i :: v < way ++ j :: w) : i ≤ j := by
  induction way with
  | nil =>
    rcases List.cons_lt_cons_iff.mp less with index | ⟨same, -⟩
    · exact Nat.le_of_lt index
    · exact Nat.le_of_eq same
  | cons k way ih =>
    rcases List.cons_lt_cons_iff.mp less with index | ⟨-, less⟩
    · exact absurd index (Nat.lt_irrefl k)
    · exact ih less

/-- The way down to the place is less than that to another one. -/
def IsBefore (p q : Place) : Prop := wayTo p.above < wayTo q.above

mutual

theorem pairwise_isBefore_placesBelow (above : List Level) :
    ∀ n : Node, (n.placesBelow above).Pairwise IsBefore
  | .node label children => by
    rw [placesBelow, List.pairwise_cons]
    refine ⟨fun q mem => ?_, pairwise_isBefore_placesIn label above [] children⟩
    obtain ⟨i, way, -, -, way_eq, -⟩ := exists_way_of_mem_placesIn label above [] children q mem
    -- a way is less than all that go on from it
    have longer : wayTo above ++ [] < wayTo above ++ (0 + i) :: way :=
      List.append_left_lt (List.nil_lt_cons _ _)
    rw [IsBefore, way_eq]
    rwa [List.append_nil] at longer

theorem pairwise_isBefore_placesIn (parent : Label) (above : List Level) :
    ∀ before children : List Node, (placesIn parent above before children).Pairwise IsBefore
  | _, [] => by simp [placesIn]
  | before, child :: rest => by
    rw [placesIn, List.pairwise_append]
    refine ⟨pairwise_isBefore_placesBelow _ child,
      pairwise_isBefore_placesIn parent above (child :: before) rest, fun p p_mem q q_mem => ?_⟩
    obtain ⟨v, p_way, -⟩ := exists_way_of_mem_placesBelow _ child p p_mem
    obtain ⟨i, w, -, -, q_way, -⟩ :=
      exists_way_of_mem_placesIn parent above (child :: before) rest q q_mem
    have index_lt : before.length < before.length + 1 + i := by omega
    rw [IsBefore, p_way, q_way, wayTo, List.append_assoc, List.singleton_append, List.length_cons]
    exact List.append_left_lt (List.cons_lt_cons_iff.mpr (.inl index_lt))

end

end Place

namespace Node

open Place

/-- A list of all places of a tree in pre-order: each node stands in it once, by its way down; a node
stands before those below it, and what is below a child before what is below its later siblings. -/
structure ListsPlaces (tree : Node) (places : List Place) : Prop where
  isIn : ∀ p ∈ places, p.IsIn tree
  all : ∀ way x, below? way tree = some x → ∃ p ∈ places, wayTo p.above = way ∧ p.node = x
  once : places.Pairwise fun p q => wayTo p.above ≠ wayTo q.above
  ancestors_first : places.Pairwise fun p q => ¬ wayTo q.above <+: wayTo p.above
  left_to_right : places.Pairwise fun p q => ∀ way i j v w,
    wayTo p.above = way ++ i :: v → wayTo q.above = way ++ j :: w → i ≤ j

/-- **The places of a tree are listed in pre-order.** -/
theorem listsPlaces_places (tree : Node) : ListsPlaces tree tree.places := by
  have sorted := pairwise_isBefore_placesBelow [] tree
  refine ⟨isIn_of_mem_placesBelow [] tree, fun way x leads => ?_, sorted.imp fun less => ne_of_lt less,
    sorted.imp fun less front => ?_, sorted.imp fun less way i j v w p_way q_way => ?_⟩
  · obtain ⟨p, mem, way_eq, node_eq⟩ := exists_mem_placesBelow [] leads
    exact ⟨p, mem, way_eq, node_eq⟩
  · obtain ⟨rest, way_eq⟩ := front
    rw [IsBefore, ← way_eq] at less
    exact absurd less (List.not_lt.mpr (List.le_append_left))
  · rw [IsBefore, p_way, q_way] at less
    exact le_of_append_cons_lt less

end Node

/-! ### The two loops -/

namespace Place

/-- From a place whose nodes below it are done, on to its next sibling, or else up until there is one.
Out of the tree there is no place. -/
inductive Climbs : Place → Option Place → Prop
  | on {p next : Place} (sibling : p.nextSibling? = some next) : Climbs p (some next)
  | up {p parent : Place} {result : Option Place} (last : p.nextSibling? = none)
      (above : p.parent? = some parent) (rest : Climbs parent result) : Climbs p result
  | out {p : Place} (last : p.nextSibling? = none) (top : p.parent? = none) : Climbs p none

/-- The places that are visited from a place on: the place, and those from its first child on, or else
from where the cursor climbs to, until it climbs out of the tree. -/
inductive Walks : Place → List Place → Prop
  | down {p child : Place} {places : List Place} (first : p.firstChild? = some child)
      (rest : Walks child places) : Walks p (p :: places)
  | on {p next : Place} {places : List Place} (leaf : p.firstChild? = none)
      (climbs : Climbs p (some next)) (rest : Walks next places) : Walks p (p :: places)
  | stop {p : Place} (leaf : p.firstChild? = none) (climbs : Climbs p none) : Walks p [p]

variable {p : Place} {result : Option Place} {places : List Place}

theorem climb_of_climbs (climbs : Climbs p result) : climb p.node p.above = result := by
  induction climbs with
  | @on p next sibling =>
    obtain ⟨n, above⟩ := p
    cases above with
    | nil => simp [nextSibling?] at sibling
    | cons level above => rw [climb, sibling]
  | @up p parent result last above rest ih =>
    obtain ⟨n, levels⟩ := p
    cases levels with
    | nil => simp [parent?] at above
    | cons level levels =>
      rw [climb, last]
      cases above
      exact ih
  | @out p last top =>
    obtain ⟨n, above⟩ := p
    cases above with
    | nil => rfl
    | cons level above => simp [parent?] at top

/-- The inner loop ends, as it goes up one level with each turn. -/
theorem climbs_climb (n : Node) (above : List Level) : Climbs ⟨n, above⟩ (climb n above) := by
  induction above generalizing n with
  | nil => exact .out rfl rfl
  | cons level above ih =>
    rw [climb]
    split
    next next sibling => exact .on sibling
    next last => exact .up last rfl (ih _)

/-- The inner loop comes to one place only. -/
theorem climbs_iff : Climbs p result ↔ climb p.node p.above = result :=
  ⟨climb_of_climbs, fun climb_eq => climb_eq ▸ climbs_climb p.node p.above⟩

/-- A turn of the outer loop that goes on. -/
theorem next?_of_climbs (leaf : p.firstChild? = none) (climbs : Climbs p result) :
    p.next? = result := by
  rw [next?, leaf]
  exact climb_of_climbs climbs

theorem placesFrom_of_walks (walks : Walks p places) : places = p.placesFrom := by
  induction walks with
  | @down p child places first rest ih =>
    rw [placesFrom_eq, next?, first, ih]
  | @on p next places leaf climbs rest ih =>
    rw [placesFrom_eq, next?_of_climbs leaf climbs, ih]
  | @stop p leaf climbs =>
    rw [placesFrom_eq, next?_of_climbs leaf climbs]

/-- The outer loop ends, as the places that are still to come are one less with each turn. -/
theorem walks_placesFrom (p : Place) : Walks p p.placesFrom := by
  induction left : p.placesFrom.length generalizing p with
  | zero =>
    rw [placesFrom_eq] at left
    simp at left
  | succ count ih =>
    rw [placesFrom_eq] at left ⊢
    cases first : p.firstChild? with
    | some child =>
      have next_eq : p.next? = some child := by rw [next?, first]
      rw [next_eq] at left ⊢
      exact .down first (ih child (Nat.succ.inj left))
    | none =>
      have next_eq : p.next? = climb p.node p.above := by rw [next?, first]
      have climbs := climbs_climb p.node p.above
      rw [next_eq] at left ⊢
      cases reached : climb p.node p.above with
      | none => exact .stop first (reached ▸ climbs)
      | some next =>
        rw [reached] at left
        exact .on first (reached ▸ climbs) (ih next (Nat.succ.inj left))

/-- **The walk ends**, and it has visited the places from its start on. -/
theorem walks_iff : Walks p places ↔ places = p.placesFrom :=
  ⟨placesFrom_of_walks, fun places_eq => places_eq ▸ walks_placesFrom p⟩

end Place

/-! ### Searches -/

namespace Document

open Node Place

/-- **The walk from the root lists the tree** in pre-order.  A search comes to the first place of the
list that passes, and to none only if none passes. -/
theorem walks_places (file : Document) :
    (∀ places, Walks (.root file.root) places ↔ places = file.root.places) ∧
    file.places = file.root.places ∧
    ListsPlaces file.root file.root.places ∧
    ∀ passes : Place → Bool,
      (∀ p, file.find? passes = some p ↔ passes p = true ∧
        ∃ front back, file.root.places = front ++ p :: back ∧ ∀ q ∈ front, passes q = false) ∧
      (file.find? passes = none ↔ ∀ p ∈ file.root.places, passes p = false) := by
  have from_root : (Place.root file.root).placesFrom = file.root.places := by
    rw [placesFrom, Place.root, placesAfter, List.append_nil, Node.places]
  have places_eq : file.places = file.root.places := preorder_eq_places file.root
  refine ⟨fun places => ?_, places_eq, listsPlaces_places file.root, fun passes => ⟨fun p => ?_, ?_⟩⟩
  · rw [walks_iff, from_root]
  · rw [Document.find?, places_eq, List.find?_eq_some_iff_append]
    simp
  · rw [Document.find?, places_eq, List.find?_eq_none]
    simp

end Document

end ModelGrid.Syntax
