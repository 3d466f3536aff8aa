import ModelGrid.Proofs.Syntax.Range
import Mathlib.Data.List.Lex

/-!
# The nearest token in front of a place

Where the white space and the comments in front of a place begin is found by a loop: it goes back over
the earlier siblings that are extras, goes up where there is none left, and stops at the first sibling
that is no extra, of which it takes the last token.  That token is found by a second loop, which goes
down to the last child that is no extra.  `LeadsBack` and `EndsWith` are these loops.

The tokens in front of a place are the ends of ways that leave the way down to the place for an
earlier child, and go on over nodes that are no extras until there is none left below.  A comment has
no part in this, nor has what is within one; a node with nothing but comments below it is a token.

The induction is on the way up from the place.  At each level, the tokens in front of the parent come
before those in the earlier siblings, so they count only where all of these siblings are extras.

## Main definitions

* `Node.EndsWith`: the loop down to the last token of a node.
* `Place.LeadsBack`: the loop back to where what is in front of a place begins.
* `Node.TokenAt`: a token of a node, by the way down to it.
* `Node.TokenBefore`: a token in front of a place, by the ways down to both.

## Main results

* `Node.EndsWith.last`: the last token of a node comes after all others.
* `Place.leadsBack_iff`: the loop back ends, and with what offset.
* `Place.leadingStart_nearest`: that offset is the end of the nearest token in front of the place.
-/

namespace ModelGrid.Syntax

namespace Node

variable {n child token : Node} {children : List Node} {way : List Nat}

/-! ### The last token of a node -/

/-- The last of the nodes that is no extra. -/
def lastIn? (children : List Node) : Option Node :=
  children.reverse.find? fun child => !child.isExtra

theorem lastIn?_eq_none : lastIn? children = none ↔ ∀ child ∈ children, child.isExtra = true := by
  simp [lastIn?]

/-- Behind the last node that is no extra, there are extras. -/
theorem exists_of_lastIn? (last : lastIn? children = some child) :
    child.isExtra = false ∧
      ∃ i, children[i]? = some child ∧
        ∀ (j : Nat) (x : Node), i < j → children[j]? = some x → x.isExtra = true := by
  obtain ⟨no_extra, back, front, reverse_eq, extras⟩ := List.find?_eq_some_iff_append.mp last
  have children_eq : children = front.reverse ++ child :: back.reverse := by
    rw [← List.reverse_reverse children, reverse_eq]
    simp
  refine ⟨by simpa using no_extra, front.reverse.length, by simp [children_eq], fun j x less there => ?_⟩
  obtain ⟨k, rfl⟩ : ∃ k, j = front.reverse.length + (k + 1) :=
    ⟨j - front.reverse.length - 1, by omega⟩
  rw [children_eq, List.getElem?_append_right (Nat.le_add_right _ _), Nat.add_sub_cancel_left,
    List.getElem?_cons_succ] at there
  simpa using extras x (List.mem_reverse.mp (List.mem_of_getElem? there))

theorem mem_of_lastIn? (last : lastIn? children = some child) : child ∈ children :=
  List.mem_reverse.mp (List.mem_of_find?_eq_some last)

/-- From a node, down to the last child that is no extra, until there is none. -/
inductive EndsWith : Node → Node → Prop
  | here {n : Node} (last : lastIn? n.children = none) : EndsWith n n
  | down {n child token : Node} (last : lastIn? n.children = some child)
      (rest : EndsWith child token) : EndsWith n token

theorem lastTokenStopIn_eq : lastTokenStopIn children = (lastIn? children).map lastTokenStop := by
  induction children with
  | nil => rfl
  | cons first rest ih =>
    rw [lastTokenStopIn, ih, lastIn?, lastIn?, List.reverse_cons, List.find?_append]
    cases rest.reverse.find? fun child => !child.isExtra with
    | some child => rfl
    | none => cases extra : first.isExtra <;> simp [extra]

theorem lastTokenStop_eq (n : Node) :
    n.lastTokenStop = ((lastIn? n.children).map lastTokenStop).getD n.stop := by
  obtain ⟨label, children⟩ := n
  rw [lastTokenStop, lastTokenStopIn_eq]
  rfl

theorem EndsWith.stop_eq (ends : EndsWith n token) : n.lastTokenStop = token.stop := by
  induction ends with
  | here last =>
    rw [lastTokenStop_eq, last]
    rfl
  | down last rest ih =>
    rw [lastTokenStop_eq, last]
    exact ih

mutual

/-- The loop down ends, as it goes down one level with each turn. -/
theorem exists_endsWith : ∀ n : Node, ∃ token, EndsWith n token
  | .node label children => by
    cases last : lastIn? children with
    | none => exact ⟨.node label children, .here last⟩
    | some child =>
      obtain ⟨token, ends⟩ := exists_endsWith_of_mem children child (mem_of_lastIn? last)
      exact ⟨token, .down last ends⟩

theorem exists_endsWith_of_mem : ∀ children : List Node, ∀ child ∈ children,
    ∃ token, EndsWith child token
  | [], _, mem => nomatch mem
  | first :: rest, child, mem => by
    rcases List.mem_cons.mp mem with same | mem
    · rw [same]
      exact exists_endsWith first
    · exact exists_endsWith_of_mem rest child mem

end

/-! ### Tokens by their ways -/

/-- The way leads from the node to a token of it, over nodes that are no extras.  A token is no extra
and has no children but extras. -/
inductive TokenAt : Node → List Nat → Node → Prop
  | here {n : Node} (no_extra : n.isExtra = false)
      (extras : ∀ child ∈ n.children, child.isExtra = true) : TokenAt n [] n
  | child {n child token : Node} {i : Nat} {way : List Nat} (no_extra : n.isExtra = false)
      (there : n.children[i]? = some child) (rest : TokenAt child way token) :
      TokenAt n (i :: way) token

theorem TokenAt.isExtra (h : TokenAt n way token) : n.isExtra = false := by
  cases h <;> assumption

theorem TokenAt.leads (h : TokenAt n way token) : below? way n = some token := by
  induction h with
  | here => rfl
  | child _ there _ ih =>
    rw [below?, there]
    exact ih

/-- Of the tokens of nodes side by side, the last one of the last node that is no extra comes after all
others, and ends behind them. -/
theorem latest_of_lastIn?
    (apart : ∀ (i j : Nat) (x m : Node), i < j → children[i]? = some x → children[j]? = some m →
      x.stop ≤ m.start)
    (each : ∀ x ∈ children, Ordered x) (last : lastIn? children = some child)
    (token_at : TokenAt child way token)
    (latest : ∀ v t, TokenAt child v t → v ≤ way ∧ t.stop ≤ token.stop) :
    ∃ i, children[i]? = some child ∧ ∀ (j : Nat) (x : Node) (v : List Nat) (t : Node),
      children[j]? = some x → TokenAt x v t → j :: v ≤ i :: way ∧ t.stop ≤ token.stop := by
  obtain ⟨-, i, there, extras⟩ := exists_of_lastIn? last
  refine ⟨i, there, fun j x v t x_there t_at => ?_⟩
  rcases Nat.lt_trichotomy j i with less | rfl | more
  · have x_before := apart j i x child less x_there there
    have t_within := (each x (List.mem_of_getElem? x_there)).within t_at.leads
    have child_ordered := each child (List.mem_of_getElem? there)
    have token_within := child_ordered.within token_at.leads
    have token_le := (child_ordered.descend token_at.leads).le
    exact ⟨le_of_lt (List.cons_lt_cons_iff.mpr (.inl less)), by omega⟩
  · rw [there] at x_there
    cases x_there
    obtain ⟨le, stop_le⟩ := latest v t t_at
    exact ⟨List.cons_le_cons j le, stop_le⟩
  · have extra := extras j x more x_there
    rw [t_at.isExtra] at extra
    cases extra

/-- The last token of a node comes after all others, and ends behind them. -/
theorem EndsWith.last (ends : EndsWith n token) (no_extra : n.isExtra = false) (ordered : Ordered n) :
    ∃ way, TokenAt n way token ∧ ∀ v t, TokenAt n v t → v ≤ way ∧ t.stop ≤ token.stop := by
  induction ends with
  | @here n last =>
    have extras := lastIn?_eq_none.mp last
    refine ⟨[], .here no_extra extras, fun v t other => ?_⟩
    cases other with
    | here => exact ⟨le_refl _, Nat.le_refl _⟩
    | child _ there rest =>
      have extra := extras _ (List.mem_of_getElem? there)
      rw [rest.isExtra] at extra
      cases extra
  | @down n child token last ends ih =>
    have child_no_extra := (exists_of_lastIn? last).1
    have child_mem := mem_of_lastIn? last
    obtain ⟨way, token_at, latest⟩ := ih child_no_extra (ordered.child child_mem)
    obtain ⟨i, there, row⟩ := latest_of_lastIn?
      (fun _ _ _ _ less first second => ordered.inOrder.stop_le less first second)
      (fun _ mem => ordered.child mem) last token_at latest
    refine ⟨i :: way, .child no_extra there token_at, fun v t other => ?_⟩
    cases other with
    | here _ extras =>
      rw [extras child child_mem] at child_no_extra
      cases child_no_extra
    | child _ other_there rest => exact row _ _ _ _ other_there rest

/-- The token at the way is in front of the place at another one: it is below an earlier sibling of
the place, or of a node above it. -/
def TokenBefore (root : Node) (place way : List Nat) (token : Node) : Prop :=
  ∃ above i j below rest sibling, place = above ++ j :: below ∧ way = above ++ i :: rest ∧ i < j ∧
    below? (above ++ [i]) root = some sibling ∧ TokenAt sibling rest token

theorem TokenBefore.lt_append {root : Node} {place : List Nat} (h : TokenBefore root place way token)
    (more : List Nat) : way < place ++ more := by
  obtain ⟨above, i, j, below, rest, -, rfl, rfl, less, -⟩ := h
  rw [List.append_assoc]
  exact List.append_left_lt (List.cons_lt_cons_iff.mpr (.inl less))

/-- A token in front of a place ends before the place begins. -/
theorem TokenBefore.stop_le {root x : Node} {place : List Nat} (h : TokenBefore root place way token)
    (ordered : Ordered root) (leads : below? place root = some x) : token.stop ≤ x.start := by
  obtain ⟨above, i, j, below, rest, sibling, rfl, rfl, less, sibling_leads, token_at⟩ := h
  rw [below?_append] at leads sibling_leads
  obtain ⟨parent, parent_leads, leads⟩ := Option.bind_eq_some_iff.mp leads
  rw [parent_leads, Option.bind_some, below?] at sibling_leads
  obtain ⟨child, there, leads⟩ := Option.bind_eq_some_iff.mp leads
  obtain ⟨_, sibling_there, same⟩ := Option.bind_eq_some_iff.mp sibling_leads
  cases same
  have parent_ordered := ordered.descend parent_leads
  have apart := parent_ordered.inOrder.stop_le less sibling_there there
  have token_within :=
    (parent_ordered.child (List.mem_of_getElem? sibling_there)).within token_at.leads
  have x_within := (parent_ordered.child (List.mem_of_getElem? there)).within leads
  omega

/-- The tokens in front of a child are those in front of its parent, and those of the earlier
children. -/
theorem tokenBefore_append_singleton {root : Node} {place : List Nat} {k : Nat} :
    TokenBefore root (place ++ [k]) way token ↔ TokenBefore root place way token ∨
      ∃ i rest sibling, i < k ∧ way = place ++ i :: rest ∧
        below? (place ++ [i]) root = some sibling ∧ TokenAt sibling rest token := by
  constructor
  · rintro ⟨above, i, j, below, rest, sibling, place_eq, way_eq, less, leads, token_at⟩
    rcases List.eq_nil_or_concat' below with rfl | ⟨below, l, rfl⟩
    · obtain ⟨rfl, same⟩ := List.append_inj' place_eq rfl
      cases same
      exact .inr ⟨i, rest, sibling, less, way_eq, leads, token_at⟩
    · have split : place ++ [k] = (above ++ j :: below) ++ [l] := by simpa using place_eq
      obtain ⟨rfl, -⟩ := List.append_inj' split rfl
      exact .inl ⟨above, i, j, below, rest, sibling, rfl, way_eq, less, leads, token_at⟩
  · rintro (⟨above, i, j, below, rest, sibling, rfl, facts⟩ | ⟨i, rest, sibling, less, facts⟩)
    · exact ⟨above, i, j, below ++ [k], rest, sibling, by simp, facts⟩
    · exact ⟨place, i, k, [], rest, sibling, rfl, facts.1, less, facts.2⟩

end Node

namespace Place

open Node

/-! ### The loop back -/

/-- Move to the sibling in front. -/
def previousSibling? (p : Place) : Option Place :=
  match p.above with
  | ⟨parent, previous :: before, after⟩ :: above =>
    some ⟨previous, ⟨parent, before, p.node :: after⟩ :: above⟩
  | _ => none

/-- From a place, back over earlier siblings that are extras, and up where there is none in front, to
the end of the last token of the first sibling that is no extra; out of the tree, to the start of the
text. -/
inductive LeadsBack : Place → Nat → Prop
  | passing {p previous : Place} {offset : Nat} (sibling : p.previousSibling? = some previous)
      (extra : previous.node.isExtra = true) (rest : LeadsBack previous offset) : LeadsBack p offset
  | token {p previous : Place} {token : Node} (sibling : p.previousSibling? = some previous)
      (no_extra : previous.node.isExtra = false) (ends : EndsWith previous.node token) :
      LeadsBack p token.stop
  | up {p parent : Place} {offset : Nat} (first : p.previousSibling? = none)
      (above : p.parent? = some parent) (rest : LeadsBack parent offset) : LeadsBack p offset
  | out {p : Place} (first : p.previousSibling? = none) (top : p.parent? = none) : LeadsBack p 0

variable {p : Place} {offset : Nat}

theorem eq_of_leadsBack (back : LeadsBack p offset) : offset = p.leadingStart := by
  induction back with
  | @passing p previous offset sibling extra rest ih =>
    obtain ⟨n, _ | ⟨⟨parent, _ | ⟨first, before⟩, after⟩, above⟩⟩ := p <;> cases sibling
    rw [ih, leadingStart, leadingStart, leadingStartBelow, leadingStartBelow,
      List.find?_cons_of_neg (by simpa using extra)]
  | @token p previous token sibling no_extra ends =>
    obtain ⟨n, _ | ⟨⟨parent, _ | ⟨first, before⟩, after⟩, above⟩⟩ := p <;> cases sibling
    rw [leadingStart, leadingStartBelow, List.find?_cons_of_pos (by simpa using no_extra)]
    exact ends.stop_eq.symm
  | @up p parent offset first above rest ih =>
    obtain ⟨n, _ | ⟨⟨label, _ | ⟨previous, before⟩, after⟩, levels⟩⟩ := p
    · cases above
    · cases above
      exact ih
    · cases first
  | @out p first top =>
    obtain ⟨n, _ | ⟨level, above⟩⟩ := p
    · rfl
    · cases top

/-- The loop back ends, as each turn leaves one sibling less at a level, or one level less. -/
theorem leadsBack_leadingStart (n : Node) (above : List Level) :
    LeadsBack ⟨n, above⟩ (leadingStartBelow above) := by
  induction above generalizing n with
  | nil => exact .out rfl rfl
  | cons level above ih =>
    obtain ⟨parent, before, after⟩ := level
    induction before generalizing n after with
    | nil => exact .up rfl rfl (ih _)
    | cons previous before back =>
      rw [leadingStartBelow]
      cases extra : previous.isExtra with
      | true =>
        have rest := back previous (n :: after)
        rw [leadingStartBelow] at rest
        rw [List.find?_cons_of_neg (by simpa using extra)]
        exact .passing rfl extra rest
      | false =>
        rw [List.find?_cons_of_pos (by simpa using extra)]
        obtain ⟨token, ends⟩ := exists_endsWith previous
        dsimp only
        rw [ends.stop_eq]
        exact .token rfl extra ends

/-- **The loop back ends**, with one offset. -/
theorem leadsBack_iff : LeadsBack p offset ↔ offset = p.leadingStart :=
  ⟨eq_of_leadsBack, fun offset_eq => offset_eq ▸ leadsBack_leadingStart p.node p.above⟩

/-! ### The nearest token -/

section Siblings

variable {n x sibling t : Node} {label : Label} {before after : List Node} {above : List Level}

/-- The earlier siblings of a node, by their indices. -/
theorem below?_before {i : Nat} (less : i < before.length) :
    below? (wayTo above ++ [i]) (whole (.node label (before.reverse ++ n :: after)) above) = some x ↔
      before.reverse[i]? = some x := by
  have there : IsIn ⟨.node label (before.reverse ++ n :: after), above⟩
    (whole (.node label (before.reverse ++ n :: after)) above) := rfl
  rw [there.below?_append, below?]
  simp only [Node.children]
  rw [List.getElem?_append_left (by simpa using less)]
  cases before.reverse[i]? <;> simp [below?]

/-- Where all earlier siblings are extras, only the tokens in front of the parent are in front of a
node. -/
theorem tokenBefore_of_extras (extras : ∀ x ∈ before, x.isExtra = true) :
    TokenBefore (whole (.node label (before.reverse ++ n :: after)) above)
        (wayTo above ++ [before.length]) way t ↔
      TokenBefore (whole (.node label (before.reverse ++ n :: after)) above) (wayTo above) way t := by
  rw [tokenBefore_append_singleton, or_iff_left_iff_imp]
  rintro ⟨i, rest, sibling, less, -, leads, token_at⟩
  have mem := List.mem_reverse.mp (List.mem_of_getElem? ((below?_before less).mp leads))
  have extra := extras sibling mem
  rw [token_at.isExtra] at extra
  cases extra

/-- The last token of the nearest earlier sibling that is no extra is the nearest token: the tokens in
front of the parent come before all of the siblings. -/
theorem nearest_of_sibling
    (ordered : Ordered (whole (.node label (before.reverse ++ n :: after)) above))
    (found : (before.find? fun sibling => !sibling.isExtra) = some sibling) :
    ∃ way t, TokenBefore (whole (.node label (before.reverse ++ n :: after)) above)
        (wayTo above ++ [before.length]) way t ∧ sibling.lastTokenStop = t.stop ∧
      ∀ v t', TokenBefore (whole (.node label (before.reverse ++ n :: after)) above)
        (wayTo above ++ [before.length]) v t' → v ≤ way ∧ t'.stop ≤ t.stop := by
  set parent := Node.node label (before.reverse ++ n :: after) with parent_def
  have there : IsIn ⟨parent, above⟩ (whole parent above) := rfl
  have parent_ordered : Ordered parent := ordered.descend there.below?
  have last : lastIn? before.reverse = some sibling := by
    rw [lastIn?, List.reverse_reverse, found]
  have child_there {j : Nat} {x : Node} (x_there : before.reverse[j]? = some x) :
      parent.children[j]? = some x := by
    rw [parent_def]
    simp only [Node.children]
    rw [List.getElem?_append_left (List.getElem?_eq_some_iff.mp x_there).1, x_there]
  have each : ∀ x ∈ before.reverse, Ordered x := fun x mem =>
    parent_ordered.child (List.mem_append_left _ mem)
  have sibling_ordered := each sibling (mem_of_lastIn? last)
  obtain ⟨token, ends⟩ := exists_endsWith sibling
  obtain ⟨way, token_at, latest⟩ := ends.last (exists_of_lastIn? last).1 sibling_ordered
  -- among the earlier siblings, no token comes behind the last one of this sibling
  obtain ⟨i, sibling_there, row⟩ := latest_of_lastIn?
    (fun _ _ _ _ less first second =>
      parent_ordered.inOrder.stop_le less (child_there first) (child_there second))
    each last token_at latest
  have less : i < before.length := by
    simpa using (List.getElem?_eq_some_iff.mp sibling_there).1
  refine ⟨wayTo above ++ i :: way, token, tokenBefore_append_singleton.mpr
    (.inr ⟨i, way, sibling, less, rfl, (below?_before less).mpr sibling_there, token_at⟩),
    ends.stop_eq, fun v t other => ?_⟩
  rcases tokenBefore_append_singleton.mp other with higher | ⟨j, w, x, j_less, rfl, leads, t_at⟩
  · have stop_le : t.stop ≤ parent.start := higher.stop_le ordered there.below?
    have start_le := (parent_ordered.inOrder.bounds
      (List.mem_of_getElem? (child_there sibling_there))).1
    have token_within := sibling_ordered.within token_at.leads
    have token_le := (sibling_ordered.descend token_at.leads).le
    exact ⟨le_of_lt (higher.lt_append _), by omega⟩
  · obtain ⟨le, stop_le⟩ := row j x w t ((below?_before j_less).mp leads) t_at
    refine ⟨?_, stop_le⟩
    rcases le.eq_or_lt with same | rest_less
    · rw [same]
    · exact le_of_lt (List.append_left_lt rest_less)

end Siblings

/-- Where what is in front of a node begins, there is the end of the nearest token in front of it, or
the start of the text if there is none. -/
theorem leadingStartBelow_nearest {n : Node} {above : List Level} (ordered : Ordered (whole n above)) :
    (leadingStartBelow above = 0 ∧
        ∀ way t, ¬ TokenBefore (whole n above) (wayTo above) way t) ∨
      ∃ way t, TokenBefore (whole n above) (wayTo above) way t ∧ leadingStartBelow above = t.stop ∧
        ∀ v t', TokenBefore (whole n above) (wayTo above) v t' → v ≤ way ∧ t'.stop ≤ t.stop := by
  induction above generalizing n with
  | nil =>
    refine .inl ⟨rfl, ?_⟩
    rintro way t ⟨above, i, j, below, rest, sibling, place_eq, -⟩
    simp [wayTo] at place_eq
  | cons level above ih =>
    obtain ⟨label, before, after⟩ := level
    rw [whole, wayTo] at *
    rw [leadingStartBelow]
    cases found : before.find? fun sibling => !sibling.isExtra with
    | none =>
      have extras : ∀ x ∈ before, x.isExtra = true := by simpa using found
      simpa only [tokenBefore_of_extras extras] using ih ordered
    | some sibling => exact .inr (nearest_of_sibling ordered found)

/-- **The nearest token in front of a place.**  In an ordered tree, the loop back from a place ends
with the end of the nearest token in front of it, the one that comes last of all, or with the start of
the text if there is none.  That is not behind the start of the place, and no token in front of the
place ends behind it. -/
theorem leadingStart_nearest {tree : Node} (ordered : Ordered tree) (mem : p ∈ tree.places) :
    (∀ offset, LeadsBack p offset ↔ offset = p.leadingStart) ∧
    ((p.leadingStart = 0 ∧ ∀ way t, ¬ TokenBefore tree (wayTo p.above) way t) ∨
      ∃ way t, TokenBefore tree (wayTo p.above) way t ∧ p.leadingStart = t.stop ∧
        ∀ v t', TokenBefore tree (wayTo p.above) v t' → v ≤ way) ∧
    p.leadingStart ≤ p.node.start ∧
    ∀ way t, TokenBefore tree (wayTo p.above) way t → t.stop ≤ p.leadingStart := by
  have there : p.IsIn tree := isIn_of_mem_placesBelow [] tree p mem
  have start_le := leadingStart_le there ordered
  refine ⟨fun offset => leadsBack_iff, ?_⟩
  rw [← there] at ordered ⊢
  rcases leadingStartBelow_nearest ordered with ⟨zero, no_token⟩ | ⟨way, t, before, stop_eq, latest⟩
  · exact ⟨.inl ⟨zero, no_token⟩, start_le, fun way t before => absurd before (no_token way t)⟩
  · refine ⟨.inr ⟨way, t, before, stop_eq, fun v t' other => (latest v t' other).1⟩, start_le,
      fun v t' other => ?_⟩
    rw [leadingStart, stop_eq]
    exact (latest v t' other).2

/-- The arguments of a call, in which there is only a comment, are the nearest token; the comment behind
them is none. -/
theorem leadingStart_nearest_comments :
    let comment (start stop : Nat) : Node := .node { kind := .comment, extra := true, start, stop } []
    let call : Node := .node { kind := .callExpression, start := 0, stop := 8 }
      [.leaf .identifier 0 1, .node { kind := .arguments, start := 1, stop := 8 } [comment 2 7]]
    let keyword : Node := .leaf .returnKeyword 15 21
    let tree : Node := .node { kind := .program, start := 0, stop := 21 }
      [call, comment 9 14, .branch .returnStatement [keyword]]
    ∃ p ∈ tree.places, p.node = keyword ∧ Ordered tree ∧ LeadsBack p 8 ∧
      ∃ way t, TokenBefore tree (wayTo p.above) way t ∧ t.stop = 8 ∧
        ∀ v t', TokenBefore tree (wayTo p.above) v t' → v ≤ way := by
  intro comment call keyword tree
  have whole : WellFormed "f(/*a*/) /*b*/ return".toList tree :=
    wellFormed_of_checks tree (by decide +kernel)
  have ordered : Ordered tree := whole.ordered
  let p : Place := ⟨keyword, [⟨(Node.branch .returnStatement [keyword]).label, [], []⟩,
    ⟨tree.label, [comment 9 14, call], []⟩]⟩
  have mem : p ∈ tree.places := List.mem_of_getElem? (rfl : tree.places[7]? = some p)
  have start : p.leadingStart = 8 := rfl
  obtain ⟨back, nearest, -⟩ := leadingStart_nearest ordered mem
  refine ⟨p, mem, rfl, ordered, (back 8).mpr start.symm, ?_⟩
  rcases nearest with ⟨zero, -⟩ | ⟨way, t, before, stop_eq, latest⟩
  · rw [start] at zero
    cases zero
  · exact ⟨way, t, before, stop_eq.symm.trans start, latest⟩

end Place

end ModelGrid.Syntax
