import ModelGrid.Proofs.Syntax.Walk

/-!
# Document order

The cursor comes to the places of a tree one after another.  Where they stand in its walk is decided
by the tree alone: a place comes before another one if the way down to it is less, by the indices of
the children on it, so a node before what is below it and a child before its later siblings.  In an
ordered tree the places that come later also start no earlier.  The first place that a search comes
to is therefore the one that starts first, and the outermost and leftmost of those that start there.

The ways decide where the starts do not: a node and its first child start together, and so do two
siblings if the first of them is empty.

## Main definitions

* `Place.ComesBefore`: being less in document order.
* `Document.IsFirst`: being the first place of a file that passes a test.

## Main results

* `Document.pairwise_comesBefore`: the walk is in document order.
* `Document.find?_eq_some_iff`: a search comes to the first place that passes.
* `Document.exists_place`: every node of the tree has its place.
-/

namespace ModelGrid.Syntax

/-! ### Starts -/

/-- In an ordered tree, a node that a lesser way leads to starts no later. -/
theorem Node.Ordered.start_le_of_lt {root x m : Node} {v way : List Nat} (ordered : Ordered root)
    (x_there : below? v root = some x) (m_there : below? way root = some m) (less : v < way) :
    x.start ≤ m.start := by
  induction v generalizing root way with
  | nil =>
    cases x_there
    exact (ordered.within m_there).1
  | cons i v ih =>
    cases way with
    | nil => exact absurd less (List.not_lt_nil _)
    | cons j way =>
      obtain ⟨child, child_there, x_below⟩ := Option.bind_eq_some_iff.mp x_there
      obtain ⟨child', child'_there, m_below⟩ := Option.bind_eq_some_iff.mp m_there
      have child_ordered := ordered.child (List.mem_of_getElem? child_there)
      have child'_ordered := ordered.child (List.mem_of_getElem? child'_there)
      rcases List.cons_lt_cons_iff.mp less with index | ⟨rfl, rest_less⟩
      · have apart := ordered.inOrder.stop_le index child_there child'_there
        have x_within := child_ordered.within x_below
        have m_within := child'_ordered.within m_below
        have x_le := (child_ordered.descend x_below).le
        omega
      · rw [child_there] at child'_there
        cases child'_there
        exact ih child_ordered x_below m_below rest_less

/-- The place is less than another one in document order. -/
structure Place.ComesBefore (p q : Place) : Prop where
  start_le : p.node.start ≤ q.node.start
  way_lt : wayTo p.above < wayTo q.above

/-! ### The first place -/

namespace Document

open Node Place

variable {file : Document} {passes : Place → Bool} {p q : Place}

/-- The walk of the cursor is in document order. -/
theorem pairwise_comesBefore (ordered : Ordered file.root) : file.places.Pairwise ComesBefore := by
  have sorted := pairwise_isBefore_placesBelow [] file.root
  rw [Document.places, preorder_eq_places]
  refine sorted.imp_of_mem fun p_mem q_mem less => ⟨?_, less⟩
  have p_there := isIn_of_mem_placesBelow [] file.root _ p_mem
  have q_there := isIn_of_mem_placesBelow [] file.root _ q_mem
  exact ordered.start_le_of_lt p_there.below? q_there.below? less

/-- Every node of the tree has its place. -/
theorem exists_place {x : Node} (there : x.IsIn file.root) : ∃ p ∈ file.places, p.node = x := by
  rw [Document.places, preorder_eq_places]
  obtain ⟨way, leads⟩ := there
  obtain ⟨p, mem, -, node_eq⟩ := exists_mem_placesBelow [] leads
  exact ⟨p, mem, node_eq⟩

/-- Of the places of a file that pass a test, this one starts first.  Of those that start together
with it, the way down to it is the least: it is the outer one of nested places, and the left one of
places side by side. -/
structure IsFirst (file : Document) (passes : Place → Bool) (p : Place) : Prop where
  mem : p ∈ file.places
  pass : passes p = true
  start_le : ∀ q ∈ file.places, passes q = true → p.node.start ≤ q.node.start
  way_le : ∀ q ∈ file.places, passes q = true → q.node.start = p.node.start →
    wayTo p.above ≤ wayTo q.above

/-- A place that a search would take comes after the one that it comes to. -/
theorem eq_or_comesBefore (ordered : Ordered file.root) (found : file.find? passes = some p)
    (mem : q ∈ file.places) (pass : passes q = true) : q = p ∨ p.ComesBefore q := by
  obtain ⟨-, front, back, places_eq, misses⟩ := List.find?_eq_some_iff_append.mp found
  have sorted := pairwise_comesBefore ordered
  rw [places_eq] at sorted mem
  rcases List.mem_append.mp mem with mem | mem
  · simpa [pass] using misses q mem
  · rcases List.mem_cons.mp mem with rfl | mem
    · exact .inl rfl
    · exact .inr ((List.pairwise_cons.mp (List.pairwise_append.mp sorted).2.1).1 q mem)

/-- **A search comes to the first place that passes.** -/
theorem find?_eq_some_iff (ordered : Ordered file.root) :
    file.find? passes = some p ↔ file.IsFirst passes p := by
  constructor
  · intro found
    refine ⟨List.mem_of_find?_eq_some found, List.find?_some found, fun q mem pass => ?_,
      fun q mem pass _ => ?_⟩
    · rcases eq_or_comesBefore ordered found mem pass with rfl | before
      · exact Nat.le_refl _
      · exact before.start_le
    · rcases eq_or_comesBefore ordered found mem pass with rfl | before
      · exact le_refl _
      · exact le_of_lt before.way_lt
  · intro first
    cases found : file.find? passes with
    | none => exact absurd first.pass (List.find?_eq_none.mp found p first.mem)
    | some q =>
      have q_mem := List.mem_of_find?_eq_some found
      have q_passes := List.find?_some found
      rcases eq_or_comesBefore ordered found first.mem first.pass with rfl | before
      · rfl
      · have start_eq := Nat.le_antisymm before.start_le (first.start_le q q_mem q_passes)
        exact absurd before.way_lt (not_lt_of_ge (first.way_le q q_mem q_passes start_eq))

/-- There is one first place at most. -/
theorem IsFirst.unique (ordered : Ordered file.root) (p_first : file.IsFirst passes p)
    (q_first : file.IsFirst passes q) : p = q := by
  have p_found := (find?_eq_some_iff ordered).mpr p_first
  have q_found := (find?_eq_some_iff ordered).mpr q_first
  exact Option.some.inj (p_found.symm.trans q_found)

/-- There is a first place if any passes. -/
theorem exists_isFirst_iff (ordered : Ordered file.root) :
    (∃ p, file.IsFirst passes p) ↔ ∃ p ∈ file.places, passes p = true := by
  refine ⟨fun ⟨p, first⟩ => ⟨p, first.mem, first.pass⟩, fun ⟨p, mem, pass⟩ => ?_⟩
  obtain ⟨first, found⟩ := Option.isSome_iff_exists.mp (List.find?_isSome.mpr ⟨p, mem, pass⟩)
  exact ⟨first, (find?_eq_some_iff ordered).mp found⟩

end Document

end ModelGrid.Syntax
