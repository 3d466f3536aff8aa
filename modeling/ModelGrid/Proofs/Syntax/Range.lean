import ModelGrid.Proofs.Syntax.Place

/-!
# Ranges in a tree

A node of a tree is reached from the root by a way down, the indices of the children on it.  In an
ordered tree, a node is apart from every other one, or has it within its range, or is below it
(`Node.Ordered.apart`).  An edge of the tree, a place where a node of it begins or ends, is therefore
never inside a token.

## Main definitions

* `Node.below?`: the node that a way down leads to.
* `Node.IsIn`: being a node of a tree.
* `Node.IsEdge`: being the start of the text or an end of a node.
* `Node.checks`: whether a tree is well formed.
* `Place.IsIn`, `Place.IsChild`: places of a tree, and a step from one to the other.

## Main results

* `Node.Ordered.apart`: how two nodes of an ordered tree stand to one another.
* `Node.IsEdge.not_inside`: edges are not inside of tokens.
* `Place.isEdge_leadingStart`, `Place.leadingStart_le`: what is in front of a place begins at an edge.
* `Node.Bracketed.inside`: constructs between brackets.
-/

namespace ModelGrid.Syntax

namespace Node

/-! ### Ways down -/

/-- The node that a way down leads to, by the indices of the children on it. -/
def below? : List Nat → Node → Option Node
  | [], n => some n
  | i :: way, n => n.children[i]?.bind (below? way)

/-- The node is one of the tree. -/
def IsIn (x root : Node) : Prop := ∃ way, below? way root = some x

variable {text : List Char} {root x m n : Node} {way v : List Nat}

theorem below?_append (v way : List Nat) (n : Node) :
    below? (v ++ way) n = (below? v n).bind (below? way) := by
  induction v generalizing n with
  | nil => rfl
  | cons i v ih =>
    rw [List.cons_append, below?, below?]
    cases n.children[i]? with
    | none => rfl
    | some child => exact ih child

theorem IsIn.refl (n : Node) : IsIn n n := ⟨[], rfl⟩

theorem IsIn.trans (lower : IsIn x n) (upper : IsIn n root) : IsIn x root := by
  obtain ⟨way, leads⟩ := lower
  obtain ⟨v, leads'⟩ := upper
  exact ⟨v ++ way, by rw [below?_append, leads']; exact leads⟩

theorem isIn_of_mem_children (mem : x ∈ n.children) : IsIn x n := by
  obtain ⟨i, there⟩ := List.mem_iff_getElem?.mp mem
  exact ⟨[i], by rw [below?, there]; rfl⟩

theorem IsIn.child (h : IsIn n root) (mem : x ∈ n.children) : IsIn x root :=
  (isIn_of_mem_children mem).trans h

/-- Every node of a tree is of a kind that the kinds of the tree pass. -/
theorem passes_of_below? {passes : Kind → Bool} (all : n.allKinds passes = true)
    (leads : below? way n = some x) : passes x.kind = true := by
  induction way generalizing n with
  | nil =>
    cases leads
    obtain ⟨label, children⟩ := x
    exact (Bool.and_eq_true_iff.mp all).1
  | cons i way ih =>
    obtain ⟨child, there, later⟩ := Option.bind_eq_some_iff.mp leads
    obtain ⟨label, children⟩ := n
    have below := allKindsIn_eq_true.mp (Bool.and_eq_true_iff.mp all).2
    exact ih (below child (List.mem_of_getElem? there)) later

/-! ### Ordered trees -/

theorem InOrder.bounds {lower upper : Nat} {children : List Node}
    (h : InOrder lower upper children) (mem : x ∈ children) :
    lower ≤ x.start ∧ x.start ≤ x.stop ∧ x.stop ≤ upper := by
  have reach {lower : Nat} {children : List Node} (h : InOrder lower upper children) :
      lower ≤ upper := by
    induction children generalizing lower with
    | nil => exact h
    | cons child rest ih => exact Nat.le_trans (Nat.le_trans h.1 h.2.1) (ih h.2.2)
  induction children generalizing lower with
  | nil => cases mem
  | cons child rest ih =>
    obtain ⟨first, le, later⟩ := h
    rcases List.mem_cons.mp mem with rfl | mem
    · exact ⟨first, le, reach later⟩
    · obtain ⟨behind, le', upto⟩ := ih later mem
      exact ⟨Nat.le_trans first (Nat.le_trans le behind), le', upto⟩

/-- Of two children, the one with the lower index ends before the other begins. -/
theorem InOrder.stop_le {lower upper : Nat} {children : List Node}
    (h : InOrder lower upper children) {i j : Nat} (less : i < j) (first : children[i]? = some x)
    (second : children[j]? = some m) : x.stop ≤ m.start := by
  induction children generalizing lower i j with
  | nil => simp at first
  | cons child rest ih =>
    obtain ⟨j, rfl⟩ : ∃ k, j = k + 1 := ⟨j - 1, by omega⟩
    rw [List.getElem?_cons_succ] at second
    cases i with
    | zero =>
      rw [List.getElem?_cons_zero] at first
      cases first
      exact (h.2.2.bounds (List.mem_of_getElem? second)).1
    | succ i =>
      rw [List.getElem?_cons_succ] at first
      exact ih h.2.2 (by omega) first second

namespace Ordered

theorem le (h : Ordered n) : n.start ≤ n.stop := by
  cases h
  assumption

theorem inOrder (h : Ordered n) : InOrder n.start n.stop n.children := by
  cases h
  assumption

theorem child (h : Ordered n) (mem : x ∈ n.children) : Ordered x := by
  cases h with
  | node _ _ _ _ each => exact each x mem

theorem descend (h : Ordered root) (leads : below? way root = some x) : Ordered x := by
  induction way generalizing root with
  | nil =>
    cases leads
    exact h
  | cons i way ih =>
    obtain ⟨child, there, leads⟩ := Option.bind_eq_some_iff.mp leads
    exact ih (h.child (List.mem_of_getElem? there)) leads

/-- A tree has its nodes within its range. -/
theorem within (h : Ordered root) (leads : below? way root = some x) :
    root.start ≤ x.start ∧ x.stop ≤ root.stop := by
  induction way generalizing root with
  | nil =>
    cases leads
    exact ⟨Nat.le_refl _, Nat.le_refl _⟩
  | cons i way ih =>
    obtain ⟨child, there, leads⟩ := Option.bind_eq_some_iff.mp leads
    have mem := List.mem_of_getElem? there
    obtain ⟨first, -, last⟩ := h.inOrder.bounds mem
    obtain ⟨start, stop⟩ := ih (h.child mem) leads
    exact ⟨Nat.le_trans first start, Nat.le_trans stop last⟩

/-- **How two nodes stand to one another** in an ordered tree: a node that is not below another one
is apart from it, or has it within its range. -/
theorem apart (h : Ordered root) (x_there : below? v root = some x)
    (m_there : below? way root = some m) (not_below : ¬ way <+: v) :
    (x.stop ≤ m.start ∨ m.stop ≤ x.start) ∨ (x.start ≤ m.start ∧ m.stop ≤ x.stop) := by
  induction way generalizing root v with
  | nil => exact absurd List.nil_prefix not_below
  | cons i way ih =>
    cases v with
    | nil =>
      cases x_there
      exact .inr (h.within m_there)
    | cons j v =>
      obtain ⟨child, child_there, x_below⟩ := Option.bind_eq_some_iff.mp x_there
      obtain ⟨child', child'_there, m_below⟩ := Option.bind_eq_some_iff.mp m_there
      have ordered := h.child (List.mem_of_getElem? child_there)
      have ordered' := h.child (List.mem_of_getElem? child'_there)
      have x_within := ordered.within x_below
      have m_within := ordered'.within m_below
      rcases Nat.lt_trichotomy j i with less | rfl | less
      · have order := h.inOrder.stop_le less child_there child'_there
        exact .inl (.inl (by omega))
      · rw [child_there] at child'_there
        cases child'_there
        exact ih ordered x_below m_below fun front =>
          not_below (List.cons_prefix_cons.mpr ⟨rfl, front⟩)
      · have order := h.inOrder.stop_le less child'_there child_there
        exact .inl (.inr (by omega))

end Ordered

theorem WellFormed.ordered (h : WellFormed text n) : Ordered n := by
  induction h with
  | node label children le inOrder _ _ _ _ _ ih => exact .node label children le inOrder ih

theorem WellFormed.descend (h : WellFormed text root) (leads : below? way root = some x) :
    WellFormed text x := by
  induction way generalizing root with
  | nil =>
    cases leads
    exact h
  | cons i way ih =>
    obtain ⟨child, there, later⟩ := Option.bind_eq_some_iff.mp leads
    cases h with
    | node _ _ _ _ _ _ _ _ each => exact ih (each child (List.mem_of_getElem? there)) later

theorem WellFormed.isIn (h : WellFormed text root) (there : x.IsIn root) : WellFormed text x :=
  h.descend there.choose_spec

/-! ### Edges -/

/-- The offset is the start of the text, or a node of the tree begins or ends there. -/
def IsEdge (root : Node) (offset : Nat) : Prop :=
  offset = 0 ∨ ∃ x : Node, x.IsIn root ∧ (offset = x.start ∨ offset = x.stop)

theorem IsEdge.start (there : x.IsIn root) : IsEdge root x.start := .inr ⟨x, there, .inl rfl⟩

theorem IsEdge.stop (there : x.IsIn root) : IsEdge root x.stop := .inr ⟨x, there, .inr rfl⟩

/-- **Edges are not inside of tokens**, nor of comments. -/
theorem IsEdge.not_inside {offset : Nat} (edge : IsEdge root offset) (h : Ordered root)
    {token : Node} (there : token.IsIn root) (is_leaf : token.children = []) :
    ¬ (token.start < offset ∧ offset < token.stop) := by
  rcases edge with rfl | ⟨x, ⟨v, x_there⟩, ends⟩
  · omega
  obtain ⟨way, token_there⟩ := there
  have x_le := (h.descend x_there).le
  by_cases below : way <+: v
  · obtain ⟨rest, rfl⟩ := below
    rw [below?_append, token_there, Option.bind_some] at x_there
    cases rest with
    | nil =>
      cases x_there
      omega
    | cons i rest => simp [below?, is_leaf] at x_there
  · have apart := h.apart x_there token_there below
    omega

/-- Edges of a tree of a text cut the text between characters. -/
theorem IsEdge.isBoundary {offset : Nat} (edge : IsEdge root offset) (h : WellFormed text root) :
    Text.IsBoundary text offset := by
  rcases edge with rfl | ⟨x, there, ends⟩
  · cases text <;> rfl
  · have formed := h.isIn there
    cases formed with
    | node label children _ _ start stop =>
      rcases ends with rfl | rfl
      · exact start
      · exact stop

mutual

/-- The last token of a tree ends where a node of the tree ends. -/
theorem exists_stop_eq_lastTokenStop : ∀ n : Node, ∃ x : Node, x.IsIn n ∧ n.lastTokenStop = x.stop
  | .node label children => by
    rw [lastTokenStop]
    cases found : lastTokenStopIn children with
    | none => exact ⟨.node label children, .refl _, rfl⟩
    | some stop =>
      obtain ⟨child, mem, x, there, eq⟩ := exists_stop_eq_lastTokenStopIn children stop found
      exact ⟨x, there.trans (isIn_of_mem_children mem), eq⟩

theorem exists_stop_eq_lastTokenStopIn : ∀ (children : List Node) (stop : Nat),
    lastTokenStopIn children = some stop →
      ∃ child ∈ children, ∃ x : Node, x.IsIn child ∧ stop = x.stop
  | [], _, found => by simp [lastTokenStopIn] at found
  | child :: rest, stop, found => by
    rw [lastTokenStopIn] at found
    split at found
    next later eq =>
      cases found
      obtain ⟨child', mem, last⟩ := exists_stop_eq_lastTokenStopIn rest stop eq
      exact ⟨child', List.mem_cons_of_mem child mem, last⟩
    next =>
      split at found
      next => cases found
      next =>
        cases found
        obtain ⟨x, there, eq⟩ := exists_stop_eq_lastTokenStop child
        exact ⟨child, List.mem_cons_self, x, there, eq⟩

end

/-! ### Brackets -/

/-- There is room for both brackets. -/
theorem Bracketed.room (h : Bracketed n) (ordered : Ordered n) : n.start + 2 ≤ n.stop := by
  obtain ⟨first, last, inner, children_eq, _, first_stop, _, last_start, _⟩ := h
  have order := ordered.inOrder
  rw [children_eq] at order
  have behind := (order.2.2.bounds (by simp : last ∈ inner ++ [last])).1
  omega

/-- The closing bracket begins one byte before the end. -/
theorem Bracketed.isEdge_close (h : Bracketed n) (there : n.IsIn root) :
    IsEdge root (n.stop - 1) := by
  obtain ⟨first, last, inner, children_eq, _, _, _, last_start, _⟩ := h
  have mem : last ∈ n.children := by simp [children_eq]
  have start : n.stop - 1 = last.start := by omega
  exact start ▸ .start (there.child mem)

/-- The opening bracket is the first child, and ends one byte behind the start. -/
theorem Bracketed.below?_open (h : Bracketed n) :
    ∃ first : Node, below? [0] n = some first ∧ n.start + 1 = first.stop := by
  obtain ⟨first, last, inner, children_eq, _, first_stop, _⟩ := h
  refine ⟨first, ?_, first_stop.symm⟩
  simp [below?, children_eq]

/-- **Constructs between brackets** are one byte away from both ends. -/
theorem Bracketed.inside (h : Bracketed n) (ordered : Ordered n) (mem : x ∈ n.children)
    (named : x.kind.isNamed = true) : n.start + 1 ≤ x.start ∧ x.stop + 1 ≤ n.stop := by
  obtain ⟨first, last, inner, children_eq, _, first_stop, _, last_start, first_mark, last_mark⟩ := h
  have order := ordered.inOrder
  have inner_mem : x ∈ inner := by
    rw [children_eq, List.cons_append, List.mem_cons, List.mem_append, List.mem_singleton] at mem
    rcases mem with rfl | mem | rfl
    · simp [named] at first_mark
    · exact mem
    · simp [named] at last_mark
  obtain ⟨i, there⟩ := List.mem_iff_getElem?.mp inner_mem
  have below_length : i < inner.length := (List.getElem?_eq_some_iff.mp there).1
  have x_there : (first :: inner ++ [last])[i + 1]? = some x := by
    rw [List.cons_append, List.getElem?_cons_succ, List.getElem?_append_left below_length, there]
  have last_there : (first :: inner ++ [last])[inner.length + 1]? = some last := by
    simp
  rw [children_eq] at order
  have first_there : (first :: inner ++ [last])[0]? = some first := rfl
  have behind_first := order.stop_le (by omega : 0 < i + 1) first_there x_there
  have before_last := order.stop_le (by omega : i + 1 < inner.length + 1) x_there last_there
  omega

/-! ### Checking trees -/

instance decidableInOrder : ∀ (lower upper : Nat) (children : List Node),
    Decidable (InOrder lower upper children)
  | lower, upper, [] => inferInstanceAs (Decidable (lower ≤ upper))
  | lower, upper, child :: rest =>
    have := decidableInOrder child.stop upper rest
    inferInstanceAs (Decidable
      (lower ≤ child.start ∧ child.start ≤ child.stop ∧ InOrder child.stop upper rest))

/-- Whether the first and the last child are brackets of one byte at the two ends of the node. -/
def isBracketed (n : Node) : Bool :=
  match n.children with
  | [] => false
  | first :: rest =>
    match rest.getLast? with
    | none => false
    | some last =>
      decide (first.start = n.start ∧ first.stop = n.start + 1 ∧ last.stop = n.stop ∧
        last.start + 1 = n.stop ∧ !first.kind.isNamed ∧ !last.kind.isNamed)

mutual

/-- Whether the tree is a well-formed tree of the text. -/
def checks (text : List Char) : Node → Bool
  | node label children =>
    decide (label.start ≤ label.stop ∧ InOrder label.start label.stop children ∧
      Text.IsBoundary text label.start ∧ Text.IsBoundary text label.stop ∧
      isFault (node label children) = false ∧
      (label.kind = .array ∨ label.kind = .object ∨ label.kind = .namedImports →
        isBracketed (node label children) = true)) &&
    checksIn text children

/-- Whether each of a row of trees is a well-formed tree of the text. -/
def checksIn (text : List Char) : List Node → Bool
  | [] => true
  | child :: rest => child.checks text && checksIn text rest

end

theorem bracketed_of_isBracketed (h : isBracketed n = true) : Bracketed n := by
  rw [isBracketed] at h
  split at h
  next => cases h
  next first rest children_eq =>
    split at h
    next => cases h
    next last last_eq =>
      obtain ⟨inner, rfl⟩ := List.getLast?_eq_some_iff.mp last_eq
      exact ⟨first, last, inner, by rw [children_eq, List.cons_append], of_decide_eq_true h⟩

mutual

/-- **A tree that passes the check is well formed.** -/
theorem wellFormed_of_checks : ∀ n : Node, n.checks text = true → WellFormed text n
  | .node label children, h => by
    rw [checks] at h
    obtain ⟨here, below⟩ := Bool.and_eq_true_iff.mp h
    obtain ⟨le, inOrder, start, stop, sound, bracketed⟩ := of_decide_eq_true here
    exact .node label children le inOrder start stop sound
      (fun kind => bracketed_of_isBracketed (bracketed kind)) (wellFormed_of_checksIn children below)

theorem wellFormed_of_checksIn : ∀ children : List Node, checksIn text children = true →
    ∀ child ∈ children, WellFormed text child
  | [], _, child, mem => by cases mem
  | first :: rest, h, child, mem => by
    obtain ⟨here, later⟩ := Bool.and_eq_true_iff.mp h
    rcases List.mem_cons.mp mem with same | mem
    · rw [same]
      exact wellFormed_of_checks first here
    · exact wellFormed_of_checksIn rest later child mem

end

end Node

/-! ### Places -/

namespace Place

open Node

/-- The tree that a node is in, by the way to the root. -/
def whole : Node → List Level → Node
  | n, [] => n
  | n, level :: above => whole (.node level.parent (level.before.reverse ++ n :: level.after)) above

/-- The place is one of the tree. -/
def IsIn (p : Place) (root : Node) : Prop := whole p.node p.above = root

/-- The way down to a place, by the way to the root. -/
def wayTo : List Level → List Nat
  | [] => []
  | level :: above => wayTo above ++ [level.before.length]

@[simp] theorem length_wayTo (above : List Level) : (wayTo above).length = above.length := by
  induction above with
  | nil => rfl
  | cons level above ih => simp [wayTo, ih]

variable {root : Node} {p q : Place}

theorem below?_whole (n : Node) (above : List Level) (rest : List Nat) :
    below? (wayTo above ++ rest) (whole n above) = below? rest n := by
  induction above generalizing n rest with
  | nil => rfl
  | cons level above ih =>
    rw [wayTo, List.append_assoc, whole, ih, List.singleton_append, below?]
    simp [Node.children]

theorem IsIn.below?_append (there : p.IsIn root) (rest : List Nat) :
    below? (wayTo p.above ++ rest) root = below? rest p.node := by
  rw [← there, below?_whole]

theorem IsIn.below? (there : p.IsIn root) : Node.below? (wayTo p.above) root = some p.node := by
  have way := there.below?_append []
  rw [List.append_nil] at way
  exact way

theorem IsIn.node (there : p.IsIn root) : p.node.IsIn root := ⟨_, there.below?⟩

theorem isIn_root (tree : Node) : (Place.root tree).IsIn tree := rfl

mutual

theorem isIn_of_mem_placesBelow (above : List Level) :
    ∀ n : Node, ∀ p ∈ n.placesBelow above, p.IsIn (whole n above)
  | .node label children, p, mem => by
    rcases List.mem_cons.mp mem with rfl | mem
    · rfl
    · exact isIn_of_mem_placesIn label above [] children p mem

theorem isIn_of_mem_placesIn (parent : Label) (above : List Level) :
    ∀ before children : List Node, ∀ p ∈ placesIn parent above before children,
      p.IsIn (whole (.node parent (before.reverse ++ children)) above)
  | _, [], p, mem => by simp [placesIn] at mem
  | before, child :: rest, p, mem => by
    rcases List.mem_append.mp mem with mem | mem
    · exact isIn_of_mem_placesBelow _ child p mem
    · have later := isIn_of_mem_placesIn parent above (child :: before) rest p mem
      simpa using later

end

/-- The places of a file are places of its tree. -/
theorem isIn_of_mem_places {file : Document} (mem : p ∈ file.places) : p.IsIn file.root := by
  rw [Document.places, preorder_eq_places] at mem
  exact isIn_of_mem_placesBelow [] file.root p mem

/-- The first place is a step down from the second. -/
def IsChild (q p : Place) : Prop :=
  ∃ level, q.above = level :: p.above ∧
    Node.node level.parent (level.before.reverse ++ q.node :: level.after) = p.node

theorem IsChild.isIn (step : q.IsChild p) (there : p.IsIn root) : q.IsIn root := by
  obtain ⟨level, above, whole_eq⟩ := step
  rw [IsIn, above, whole, whole_eq]
  exact there

theorem IsChild.mem (step : q.IsChild p) : q.node ∈ p.node.children := by
  obtain ⟨level, _, whole_eq⟩ := step
  rw [← whole_eq]
  simp [Node.children]

theorem IsChild.wayTo_eq (step : q.IsChild p) : ∃ i, wayTo q.above = wayTo p.above ++ [i] := by
  obtain ⟨level, above, _⟩ := step
  exact ⟨level.before.length, by rw [above, wayTo]⟩

theorem isChild_of_mem_constructsFrom {parent : Label} {above : List Level}
    {before children : List Node} (mem : q ∈ constructsFrom parent above before children) :
    q.IsChild ⟨.node parent (before.reverse ++ children), above⟩ ∧ q.node.kind.isNamed = true := by
  induction children generalizing before with
  | nil => simp [constructsFrom] at mem
  | cons child rest ih =>
    have later (mem : q ∈ constructsFrom parent above (child :: before) rest) :
        q.IsChild ⟨.node parent (before.reverse ++ child :: rest), above⟩ ∧
          q.node.kind.isNamed = true := by
      simpa using ih mem
    rw [constructsFrom] at mem
    split at mem
    next named =>
      rcases List.mem_cons.mp mem with rfl | mem
      · exact ⟨⟨_, rfl, rfl⟩, (Bool.and_eq_true_iff.mp named).1⟩
      · exact later mem
    next => exact later mem

theorem isChild_of_mem_constructs (mem : q ∈ p.constructs) :
    q.IsChild p ∧ q.node.kind.isNamed = true := by
  obtain ⟨⟨label, children⟩, above⟩ := p
  exact isChild_of_mem_constructsFrom mem

theorem isChild_of_childOfFrom {field : Field} {parent : Label} {above : List Level}
    {before children : List Node} (found : childOfFrom field parent above before children = some q) :
    q.IsChild ⟨.node parent (before.reverse ++ children), above⟩ := by
  induction children generalizing before with
  | nil => simp [childOfFrom] at found
  | cons child rest ih =>
    rw [childOfFrom] at found
    split at found
    next =>
      cases found
      exact ⟨_, rfl, rfl⟩
    next => simpa using ih found

theorem isChild_of_childOf? {field : Field} (found : p.childOf? field = some q) : q.IsChild p := by
  obtain ⟨⟨label, children⟩, above⟩ := p
  exact isChild_of_childOfFrom found

/-! ### What is in front of a place -/

theorem leadingStartBelow_spec {n : Node} {above : List Level} (ordered : Ordered (whole n above)) :
    leadingStartBelow above ≤ n.start ∧ IsEdge (whole n above) (leadingStartBelow above) := by
  induction above generalizing n with
  | nil => exact ⟨Nat.zero_le _, .inl rfl⟩
  | cons level above ih =>
    rw [whole] at ordered ⊢
    set parent := Node.node level.parent (level.before.reverse ++ n :: level.after) with parent_def
    have parent_there : parent.IsIn (whole parent above) := IsIn.node (rfl : IsIn ⟨parent, above⟩ _)
    have parent_ordered : Ordered parent := ordered.descend parent_there.choose_spec
    have n_mem : n ∈ parent.children := by simp [parent_def, Node.children]
    rw [leadingStartBelow]
    split
    next sibling found =>
      have sibling_mem : sibling ∈ level.before := List.mem_of_find?_eq_some found
      have sibling_child : sibling ∈ parent.children := by
        simp [parent_def, Node.children, sibling_mem]
      obtain ⟨x, there, eq⟩ := exists_stop_eq_lastTokenStop sibling
      have x_there := (there.trans (isIn_of_mem_children sibling_child)).trans parent_there
      have x_within := (parent_ordered.child sibling_child).within there.choose_spec
      obtain ⟨i, i_there⟩ := List.mem_iff_getElem?.mp (List.mem_reverse.mpr sibling_mem)
      have i_less : i < level.before.reverse.length := (List.getElem?_eq_some_iff.mp i_there).1
      have sibling_there : parent.children[i]? = some sibling := by
        rw [parent_def]
        simp only [Node.children]
        rw [List.getElem?_append_left i_less, i_there]
      have n_there : parent.children[level.before.reverse.length]? = some n := by
        rw [parent_def]
        simp [Node.children]
      have before_n := parent_ordered.inOrder.stop_le i_less sibling_there n_there
      exact ⟨by omega, eq ▸ .stop x_there⟩
    next =>
      obtain ⟨le, edge⟩ := ih ordered
      exact ⟨Nat.le_trans le (parent_ordered.inOrder.bounds n_mem).1, edge⟩

/-- What is in front of a place begins at an edge of the tree. -/
theorem isEdge_leadingStart (there : p.IsIn root) (ordered : Ordered root) :
    IsEdge root p.leadingStart := by
  rw [← there] at ordered ⊢
  exact (leadingStartBelow_spec ordered).2

theorem leadingStart_le (there : p.IsIn root) (ordered : Ordered root) :
    p.leadingStart ≤ p.node.start := by
  rw [← there] at ordered
  exact (leadingStartBelow_spec ordered).1

end Place

end ModelGrid.Syntax
