import ModelGrid.Proofs.Syntax.DocumentOrder

/-!
# White space and comments in front of a place

What is in front of a place begins where the nearest token before it ends, which is searched for
among the earlier siblings of the place, of its parent, and so on up.  In a well-formed file there is
nothing but white space and comments from there to the place.

A byte that is no white space belongs to a token.  If it is in front of a place and behind the
nearest token before it, then the token is an extra, or within one: on the way down to it there is a
node that the search passes over, an extra beside the place, beside a node above it, or at the end of
the sibling whose last token the search takes.  Where this node is decides that it is wholly between
the two offsets.

## Main definitions

* `Text.charAt?`: the character that has the byte at an offset.
* `Node.Covers`: the byte at an offset is in the range of a node.
* `Document.WellFormed`: a file with a well-formed tree.
* `Document.TriviaBetween`: there is nothing but white space and comments between two offsets.

## Main results

* `Node.Ordered.isPrefix_of_covers`: a token is below each node that has a byte of it.
* `Document.WellFormed.triviaBetween`: what is in front of a place.
-/

namespace ModelGrid

namespace Text

/-- The character that has the byte at an offset in its UTF-8 form. -/
def charAt? : Nat → List Char → Option Char
  | _, [] => none
  | offset, c :: cs => if offset < c.utf8Size then some c else charAt? (offset - c.utf8Size) cs

theorem lt_size_of_charAt? {offset : Nat} {cs : List Char} {c : Char}
    (found : charAt? offset cs = some c) : offset < size cs := by
  induction cs generalizing offset with
  | nil => simp [charAt?] at found
  | cons first cs ih =>
    rw [charAt?] at found
    split at found
    next less => exact Nat.lt_of_lt_of_le less (Nat.le_add_right _ _)
    next =>
      have later := ih found
      rw [size_cons]
      omega

end Text

namespace Syntax

namespace Node

/-- The byte at the offset is in the range of the node. -/
def Covers (n : Node) (offset : Nat) : Prop :=
  n.start ≤ offset ∧ offset < n.stop

instance (n : Node) (offset : Nat) : Decidable (n.Covers offset) :=
  inferInstanceAs (Decidable (_ ∧ _))

/-- Without children, a node is a token. -/
def IsToken (n : Node) : Prop :=
  n.children = []

instance (n : Node) : Decidable n.IsToken :=
  inferInstanceAs (Decidable (n.children = []))

variable {root m n token : Node} {offset : Nat}

/-! ### Neighbours -/

/-- What is beside a child in a row is in front of it or behind it. -/
theorem InOrder.around {lower upper : Nat} {front back : List Node}
    (h : InOrder lower upper (front ++ n :: back)) :
    (∀ x ∈ front, x.stop ≤ n.start) ∧ ∀ x ∈ back, n.stop ≤ x.start := by
  induction front generalizing lower with
  | nil => exact ⟨by simp, fun x mem => (h.2.2.bounds mem).1⟩
  | cons first front ih =>
    obtain ⟨before, behind⟩ := ih h.2.2
    refine ⟨fun x mem => ?_, behind⟩
    rcases List.mem_cons.mp mem with rfl | mem
    · exact (h.2.2.bounds (by simp)).1
    · exact before x mem

/-- Without a last token, a row has extras only. -/
theorem isExtra_of_lastTokenStopIn {children : List Node} (none : lastTokenStopIn children = none) :
    ∀ x ∈ children, x.isExtra = true := by
  induction children with
  | nil => simp
  | cons child rest ih =>
    rw [lastTokenStopIn] at none
    split at none
    · cases none
    next later =>
      split at none
      next extra => exact List.forall_mem_cons.mpr ⟨extra, ih later⟩
      next => cases none

/-- The last token of a row is that of its last child that is no extra. -/
theorem exists_of_lastTokenStopIn {children : List Node} {stop : Nat}
    (found : lastTokenStopIn children = some stop) :
    ∃ front last back, children = front ++ last :: back ∧ (∀ x ∈ back, x.isExtra = true) ∧
      stop = last.lastTokenStop := by
  induction children with
  | nil => simp [lastTokenStopIn] at found
  | cons child rest ih =>
    rw [lastTokenStopIn] at found
    split at found
    next later =>
      cases found
      obtain ⟨front, last, back, rfl, extras, eq⟩ := ih later
      exact ⟨child :: front, last, back, rfl, extras, eq⟩
    next later =>
      split at found
      next => cases found
      next =>
        cases found
        exact ⟨[], child, rest, rfl, isExtra_of_lastTokenStopIn later, rfl⟩

/-- The last token of a node ends with the node, if it has no children but extras, or is that of a
child behind which there are only extras. -/
theorem lastTokenStop_cases (n : Node) :
    n.lastTokenStop = n.stop ∨ ∃ front last back, n.children = front ++ last :: back ∧
      (∀ x ∈ back, x.isExtra = true) ∧ n.lastTokenStop = last.lastTokenStop := by
  obtain ⟨label, children⟩ := n
  rw [lastTokenStop]
  cases found : lastTokenStopIn children with
  | none => exact .inl rfl
  | some stop => exact .inr (exists_of_lastTokenStopIn found)

theorem Ordered.lastTokenStop_bounds (ordered : Ordered n) :
    n.start ≤ n.lastTokenStop ∧ n.lastTokenStop ≤ n.stop := by
  obtain ⟨x, there, eq⟩ := exists_stop_eq_lastTokenStop n
  have within := ordered.within there.choose_spec
  have le := (ordered.descend there.choose_spec).le
  omega

/-! ### Where a token is -/

/-- **A token is below each node that has a byte of it.** -/
theorem Ordered.isPrefix_of_covers {v way : List Nat} (ordered : Ordered root)
    (leads : below? v root = some token) (leaf : token.IsToken) (covers : token.Covers offset)
    (there : below? way root = some m) (has : m.Covers offset) : way <+: v := by
  induction way generalizing root v with
  | nil => exact List.nil_prefix
  | cons j way ih =>
    obtain ⟨child', child'_there, m_below⟩ := Option.bind_eq_some_iff.mp there
    cases v with
    | nil =>
      cases leads
      rw [leaf] at child'_there
      simp at child'_there
    | cons k v =>
      obtain ⟨child, child_there, token_below⟩ := Option.bind_eq_some_iff.mp leads
      have child_ordered := ordered.child (List.mem_of_getElem? child_there)
      have child'_ordered := ordered.child (List.mem_of_getElem? child'_there)
      have token_within := child_ordered.within token_below
      have m_within := child'_ordered.within m_below
      obtain ⟨token_start, token_stop⟩ := covers
      obtain ⟨m_start, m_stop⟩ := has
      rcases Nat.lt_trichotomy j k with less | rfl | less
      · have apart := ordered.inOrder.stop_le less child'_there child_there
        omega
      · rw [child_there] at child'_there
        cases child'_there
        exact List.cons_prefix_cons.mpr ⟨rfl, ih child_ordered token_below m_below⟩
      · have apart := ordered.inOrder.stop_le less child_there child'_there
        omega

/-- A token of a tree is the tree itself or in one of its children. -/
theorem exists_child_of_isIn (there : token.IsIn n) (differ : token ≠ n) :
    ∃ child ∈ n.children, token.IsIn child := by
  obtain ⟨way, leads⟩ := there
  cases way with
  | nil => exact absurd (Option.some.inj leads).symm differ
  | cons i way =>
    obtain ⟨child, at_i, leads⟩ := Option.bind_eq_some_iff.mp leads
    exact ⟨child, List.mem_of_getElem? at_i, way, leads⟩

/-- There is an extra with the byte at the offset, wholly between two offsets. -/
def HasExtra (root : Node) (lower upper offset : Nat) : Prop :=
  ∃ x : Node, x.IsIn root ∧ x.isExtra = true ∧ lower ≤ x.start ∧ x.Covers offset ∧ x.stop ≤ upper

theorem HasExtra.mono {lower lower' upper upper' : Nat} (h : HasExtra n lower upper offset)
    (there : n.IsIn root) (lower_le : lower' ≤ lower) (le_upper : upper ≤ upper') :
    HasExtra root lower' upper' offset := by
  obtain ⟨x, x_there, extra, start, covers, stop⟩ := h
  exact ⟨x, x_there.trans there, extra, by omega, covers, by omega⟩

/-- Behind the last token of a tree, a token of it is within an extra. -/
theorem Ordered.hasExtra_of_lastTokenStop_le (ordered : Ordered n) (there : token.IsIn n)
    (leaf : token.IsToken) (covers : token.Covers offset) (behind : n.lastTokenStop ≤ offset) :
    HasExtra n n.lastTokenStop n.stop offset := by
  obtain ⟨way, leads⟩ := there
  induction way generalizing n with
  | nil =>
    cases leads
    rcases token.lastTokenStop_cases with eq | ⟨front, last, back, eq, -⟩
    · exact absurd covers.2 (by omega)
    · rw [leaf] at eq
      simp at eq
  | cons i way ih =>
    have within := ordered.within leads
    obtain ⟨child, at_i, leads⟩ := Option.bind_eq_some_iff.mp leads
    have child_mem := List.mem_of_getElem? at_i
    have child_ordered := ordered.child child_mem
    have child_within := child_ordered.within leads
    have child_covers : child.Covers offset :=
      ⟨Nat.le_trans child_within.1 covers.1, Nat.lt_of_lt_of_le covers.2 child_within.2⟩
    rcases n.lastTokenStop_cases with eq | ⟨front, last, back, children_eq, extras, eq⟩
    · exact absurd covers.2 (by omega)
    have inOrder := ordered.inOrder
    have bounds := inOrder.bounds child_mem
    have last_bounds := (ordered.child (by simp [children_eq] : last ∈ n.children)).lastTokenStop_bounds
    rw [children_eq] at inOrder
    obtain ⟨before, after⟩ := inOrder.around
    rw [children_eq, List.mem_append, List.mem_cons] at child_mem
    rcases child_mem with mem | rfl | mem
    · have apart := before child mem
      exact absurd child_covers.2 (by omega)
    · have child_there : child.IsIn n := isIn_of_mem_children (by simp [children_eq])
      exact (ih child_ordered (eq ▸ behind) leads).mono child_there (by omega) bounds.2.2
    · have apart := after child mem
      have child_there : child.IsIn n := isIn_of_mem_children (by simp [children_eq, mem])
      exact ⟨child, child_there, extras child mem, by omega, child_covers, bounds.2.2⟩

/-! ### Among the siblings of a node -/

section Siblings

variable {parent sibling : Node} {before after : List Node} (ordered : Ordered parent)
  (children_eq : parent.children = before.reverse ++ n :: after) (there : token.IsIn parent)
  (leaf : token.IsToken) (covers : token.Covers offset) (front : offset < n.start)

include ordered children_eq there leaf covers front

/-- A token in front of a child is in an earlier sibling of it. -/
theorem Ordered.exists_earlier : ∃ child ∈ before, token.IsIn child ∧ child.Covers offset := by
  have differ : token ≠ parent := by
    rintro rfl
    rw [leaf] at children_eq
    simp at children_eq
  obtain ⟨child, mem, below⟩ := exists_child_of_isIn there differ
  have within := (ordered.child mem).within below.choose_spec
  have child_covers : child.Covers offset :=
    ⟨Nat.le_trans within.1 covers.1, Nat.lt_of_lt_of_le covers.2 within.2⟩
  have inOrder := ordered.inOrder
  have n_le := (inOrder.bounds (by simp [children_eq] : n ∈ parent.children)).2.1
  rw [children_eq] at inOrder mem
  rcases List.mem_append.mp mem with mem | mem
  · exact ⟨child, List.mem_reverse.mp mem, below, child_covers⟩
  · have start_le : n.start ≤ child.start := by
      rcases List.mem_cons.mp mem with rfl | mem
      · exact Nat.le_refl _
      · exact Nat.le_trans n_le (inOrder.around.2 child mem)
    exact absurd child_covers.1 (by omega)

/-- Without a token beside a child, a token in front of it is within an extra. -/
theorem Ordered.hasExtra_of_extras (extras : ∀ x ∈ before, x.isExtra = true) :
    HasExtra parent parent.start n.start offset := by
  obtain ⟨child, mem, -, child_covers⟩ :=
    ordered.exists_earlier children_eq there leaf covers front
  have child_mem : child ∈ parent.children := by simp [children_eq, mem]
  have inOrder := ordered.inOrder
  have bounds := inOrder.bounds child_mem
  rw [children_eq] at inOrder
  exact ⟨child, isIn_of_mem_children child_mem, extras child mem, bounds.1, child_covers,
    inOrder.around.1 child (List.mem_reverse.mpr mem)⟩

/-- Behind the nearest token beside a child, a token in front of it is within an extra. -/
theorem Ordered.hasExtra_of_sibling
    (found : (before.find? fun x => !x.isExtra) = some sibling)
    (behind : sibling.lastTokenStop ≤ offset) :
    HasExtra parent sibling.lastTokenStop n.start offset := by
  obtain ⟨child, mem, below, child_covers⟩ :=
    ordered.exists_earlier children_eq there leaf covers front
  obtain ⟨-, near, far, rfl, extras⟩ := List.find?_eq_some_iff_append.mp found
  have child_mem : child ∈ parent.children := by
    rw [children_eq]
    exact List.mem_append_left _ (List.mem_reverse.mpr mem)
  have sibling_mem : sibling ∈ parent.children := by simp [children_eq]
  have child_there := isIn_of_mem_children child_mem
  have sibling_bounds := (ordered.child sibling_mem).lastTokenStop_bounds
  have inOrder := ordered.inOrder
  rw [children_eq] at inOrder
  have stop_le := inOrder.around.1 child (List.mem_reverse.mpr mem)
  -- the row once more, with the sibling in the middle
  have row : (near ++ sibling :: far).reverse ++ n :: after =
      far.reverse ++ sibling :: (near.reverse ++ n :: after) := by simp
  rw [row] at inOrder
  obtain ⟨farther, nearer⟩ := inOrder.around
  rcases List.mem_append.mp mem with mem | mem
  · have extra : child.isExtra = true := by simpa using extras child mem
    have apart := nearer child (by simp [mem])
    exact ⟨child, child_there, extra, by omega, child_covers, stop_le⟩
  · rcases List.mem_cons.mp mem with rfl | mem
    · have within := (ordered.child child_mem).hasExtra_of_lastTokenStop_le below leaf covers behind
      exact within.mono child_there (Nat.le_refl _) stop_le
    · have apart := farther child (List.mem_reverse.mpr mem)
      exact absurd child_covers.2 (by omega)

end Siblings

end Node

/-! ### What is in front of a place -/

open Node

/-- Behind the nearest token in front of a place, a token in front of the place is within an
extra. -/
theorem Place.hasExtra_of_leadingStartBelow_le {token n : Node} {above : List Level} {offset : Nat}
    (ordered : Ordered (whole n above)) (there : token.IsIn (whole n above)) (leaf : token.IsToken)
    (covers : token.Covers offset) (behind : leadingStartBelow above ≤ offset)
    (front : offset < n.start) :
    HasExtra (whole n above) (leadingStartBelow above) n.start offset := by
  induction above generalizing n with
  | nil =>
    have within : n.start ≤ token.start := (ordered.within there.choose_spec).1
    exact absurd covers.1 (by omega)
  | cons level above ih =>
    obtain ⟨parentLabel, before, after⟩ := level
    rw [whole] at ordered there ⊢
    set parent := Node.node parentLabel (before.reverse ++ n :: after) with parent_def
    have children_eq : parent.children = before.reverse ++ n :: after := rfl
    have parent_place : IsIn ⟨parent, above⟩ (whole parent above) := rfl
    have parent_ordered : Ordered parent := ordered.descend parent_place.below?
    have n_bounds := parent_ordered.inOrder.bounds (by simp [children_eq] : n ∈ parent.children)
    have lead_le := (leadingStartBelow_spec ordered).1
    -- a byte of the parent is of a token of the parent
    have inside (start_le : parent.start ≤ offset) : token.IsIn parent := by
      obtain ⟨way, leads⟩ := there
      have has : parent.Covers offset := ⟨start_le, by omega⟩
      obtain ⟨rest, rfl⟩ := ordered.isPrefix_of_covers leads leaf covers parent_place.below? has
      exact ⟨rest, by rw [← leads, parent_place.below?_append]⟩
    rw [leadingStartBelow] at behind ⊢
    split at behind
    next sibling found =>
      have sibling_mem : sibling ∈ parent.children := by
        simp [children_eq, List.mem_of_find?_eq_some found]
      have sibling_start := (parent_ordered.inOrder.bounds sibling_mem).1
      have sibling_bounds := (parent_ordered.child sibling_mem).lastTokenStop_bounds
      have below := inside (by omega)
      exact (parent_ordered.hasExtra_of_sibling children_eq below leaf covers front found
        behind).mono parent_place.node (Nat.le_refl _) (Nat.le_refl _)
    next none =>
      rcases Nat.lt_or_ge offset parent.start with before_parent | start_le
      · exact (ih ordered there behind before_parent).mono (.refl _) (Nat.le_refl _) n_bounds.1
      · have extras : ∀ x ∈ before, x.isExtra = true := by simpa using none
        exact (parent_ordered.hasExtra_of_extras children_eq (inside start_le) leaf covers front
          extras).mono parent_place.node lead_le (Nat.le_refl _)

namespace Document

variable {file : Document} {p : Place}

/-- The tree of the file is one of its text, by the grammar: nodes are ordered and within their
parents, what is outside of the tokens is white space, comments are the only extras, and a block of
statements opens with its brace. -/
structure WellFormed (file : Document) : Prop where
  ordered : Ordered file.root
  gaps : ∀ offset c, Text.charAt? offset file.text = some c →
    isSpace c = true ∨ ∃ p ∈ file.places, p.node.IsToken ∧ p.node.Covers offset
  extras : ∀ p ∈ file.places, p.node.isExtra = true → p.node.kind = .comment
  blocks : ∀ p ∈ file.places, p.node.kind = .statementBlock →
    p.node.children.head?.map Node.kind = some .openBrace

/-- There is nothing but white space and comments between two offsets: each byte there is of a
character of white space, or of a comment that is wholly between the two. -/
def TriviaBetween (file : Document) (lower upper : Nat) : Prop :=
  ∀ offset c, lower ≤ offset → offset < upper → Text.charAt? offset file.text = some c →
    isSpace c = true ∨ ∃ p ∈ file.places, p.node.kind = .comment ∧
      lower ≤ p.node.start ∧ p.node.Covers offset ∧ p.node.stop ≤ upper

/-- **What is in front of a place is white space and comments.** -/
theorem WellFormed.triviaBetween (formed : file.WellFormed) (mem : p ∈ file.places) :
    file.TriviaBetween p.leadingStart p.node.start := by
  intro offset c behind front at_offset
  rcases formed.gaps offset c at_offset with space | ⟨token, token_mem, leaf, covers⟩
  · exact .inl space
  · have there := Place.isIn_of_mem_places mem
    have token_there := (Place.isIn_of_mem_places token_mem).node
    have ordered := formed.ordered
    rw [← there] at ordered token_there
    have extra := Place.hasExtra_of_leadingStartBelow_le ordered token_there leaf covers behind front
    rw [there] at extra
    obtain ⟨x, x_there, x_extra, start, covers, stop⟩ := extra
    obtain ⟨q, q_mem, rfl⟩ := exists_place x_there
    exact .inr ⟨q, q_mem, formed.extras q q_mem x_extra, start, covers, stop⟩

end Document

end Syntax

end ModelGrid
