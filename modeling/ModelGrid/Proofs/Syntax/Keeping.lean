import ModelGrid.Syntax.Grammar

/-!
# What phrases keep

A property of tokens and one of nodes go together if nodes made of tokens with the one have the other,
and so have nodes made of such nodes.  Every phrase then reads tokens with the property as nodes with
the other one, and leaves tokens with it.

A phrase may put nodes to its left into those it makes.  So what it keeps is said for given nodes on
its left, and a phrase that looks at none of them keeps the same whatever they are.

That a phrase keeps a property follows from its shape: there is one instance for each combinator, and
one for each rule of the grammar, found from its definition.

The one kind left out is that of imports, whose rule begins with a word of its own
(`BuildsImports`).

## Main definitions

* `Phrase.Keeps`: what a phrase keeps.
* `Builds`: nodes have a property if the tokens have the other.
-/

namespace ModelGrid.Syntax

/-- A Boolean that evaluates to `false`, found by evaluation. -/
class IsFalse (b : Bool) : Prop where
  eq_false : b = false

instance : IsFalse false := ⟨rfl⟩

/-- The kind of the nodes that only the rule of imports makes. -/
@[reducible] def Kind.isImport : Kind → Bool
  | .importStatement => true
  | _ => false

namespace Phrase

/-- The phrase makes nodes with the property `N` of tokens with the property `T`, and leaves tokens
with the property `T`, if the nodes on its left have the property `N`. -/
class Keeps (T : Token → Prop) (N : Node → Prop) (left : List Node) (p : Phrase) : Prop where
  keeps : (∀ n ∈ left, N n) → ∀ tokens nodes rest, (∀ t ∈ tokens, T t) →
    p tokens = some (nodes, rest) → (∀ n ∈ nodes, N n) ∧ ∀ t ∈ rest, T t

/-- All of the phrases keep the properties. -/
class KeepsAll (T : Token → Prop) (N : Node → Prop) (left : List Node) (ps : List Phrase) : Prop where
  keeps : ∀ p ∈ ps, Keeps T N left p

end Phrase

open Phrase

/-- Nodes that are made of tokens with the property `T`, and of nodes with the property `N`, have the
property `N`. -/
class Builds (T : Token → Prop) (N : Node → Prop) : Prop where
  leaf : ∀ kind t, kind.isImport = false → T t → N (.leaf kind t.start t.stop)
  stray : ∀ t, T t → N (.stray t.start t.stop)
  /-- A mark that is made of several tokens. -/
  sign : ∀ t t', T t → T t' → N (.leaf .punctuation t.start t'.stop)
  /-- A mark that is supplied behind other nodes. -/
  absent : ∀ left : List Node, (∀ n ∈ left, N n) →
    N (.absent .punctuation ((left.getLast?.map Node.stop).getD 0))
  branch : ∀ kind nodes, kind.isImport = false → (∀ n ∈ nodes, N n) → N (.branch kind nodes)
  withField : ∀ field n, N n → N (n.withField field)
  asError : ∀ n, N n → N (n.withKind .error)
  asPattern : ∀ n, N n → N n.asPattern

/-- The rule of imports keeps the properties as well. -/
class BuildsImports (T : Token → Prop) (N : Node → Prop) : Prop where
  importStatement : ∀ (r : Rules), (∀ left goal, Keeps T N left (r goal)) →
    ∀ left, Keeps T N left r.importStatement

namespace Phrase

variable {T : Token → Prop} {N : Node → Prop} {left : List Node} {p : Phrase} {ps : List Phrase}

/-! ### Rows of phrases -/

instance keepsAll_nil : KeepsAll T N left [] := ⟨List.forall_mem_nil _⟩

instance keepsAll_cons [one : Keeps T N left p] [others : KeepsAll T N left ps] :
    KeepsAll T N left (p :: ps) :=
  ⟨List.forall_mem_cons.mpr ⟨one, others.keeps⟩⟩

instance keepsAll_map {α : Type} {f : α → Phrase} [each : ∀ a, Keeps T N left (f a)] {as : List α} :
    KeepsAll T N left (as.map f) :=
  ⟨List.forall_mem_map.mpr fun a _ => each a⟩

instance keepsAll_append {qs : List Phrase} [front : KeepsAll T N left ps]
    [back : KeepsAll T N left qs] : KeepsAll T N left (ps ++ qs) :=
  ⟨List.forall_mem_append.mpr ⟨front.keeps, back.keeps⟩⟩

/-! ### Combinators -/

instance keeps_emit : Keeps T N left (emit left) :=
  ⟨fun all _ _ _ tokens read => by cases read; exact ⟨all, tokens⟩⟩

instance keeps_emit_nil : Keeps T N left (emit []) :=
  ⟨fun _ _ _ _ tokens read => by cases read; exact ⟨List.forall_mem_nil _, tokens⟩⟩

instance keeps_ite {c : Prop} [Decidable c] {q : Phrase} [Keeps T N left p] [Keeps T N left q] :
    Keeps T N left (if c then p else q) := by
  split <;> infer_instance

instance keeps_fail : Keeps T N left fail := ⟨fun _ _ _ _ _ read => by cases read⟩

instance keeps_seq [each : KeepsAll T N left ps] : Keeps T N left (seq ps) := by
  obtain ⟨each⟩ := each
  refine ⟨fun all tokens nodes rest ok read => ?_⟩
  induction ps generalizing tokens nodes with
  | nil =>
    cases read
    exact ⟨List.forall_mem_nil _, ok⟩
  | cons p ps ih =>
    obtain ⟨one, others⟩ := List.forall_mem_cons.mp each
    rw [seq] at read
    split at read
    next => cases read
    next made middle first =>
      obtain ⟨made_ok, middle_ok⟩ := one.keeps all _ _ _ ok first
      split at read
      next => cases read
      next more after later =>
        cases read
        obtain ⟨more_ok, after_ok⟩ := ih others _ _ middle_ok later
        exact ⟨List.forall_mem_append.mpr ⟨made_ok, more_ok⟩, after_ok⟩

instance keeps_first [each : KeepsAll T N left ps] : Keeps T N left (first ps) := by
  obtain ⟨each⟩ := each
  refine ⟨fun all tokens nodes rest ok read => ?_⟩
  induction ps with
  | nil => cases read
  | cons p ps ih =>
    obtain ⟨one, others⟩ := List.forall_mem_cons.mp each
    rw [first] at read
    split at read
    next found fits =>
      cases read
      exact one.keeps all _ _ _ ok fits
    next => exact ih others read

instance keeps_opt [KeepsAll T N left ps] : Keeps T N left (opt ps) := by
  unfold opt
  infer_instance

instance keeps_many [one : Keeps T N left p] : Keeps T N left (many p) := by
  have upTo (fuel : Nat) : Keeps T N left (manyUpTo p fuel) := by
    refine ⟨fun all tokens nodes rest ok read => ?_⟩
    induction fuel generalizing tokens nodes with
    | zero =>
      cases read
      exact ⟨List.forall_mem_nil _, ok⟩
    | succ fuel ih =>
      rw [manyUpTo] at read
      split at read
      next =>
        cases read
        exact ⟨List.forall_mem_nil _, ok⟩
      next made middle first =>
        obtain ⟨made_ok, middle_ok⟩ := one.keeps all _ _ _ ok first
        split at read
        next =>
          split at read
          next => cases read
          next more after later =>
            cases read
            obtain ⟨more_ok, after_ok⟩ := ih _ _ middle_ok later
            exact ⟨List.forall_mem_append.mpr ⟨made_ok, more_ok⟩, after_ok⟩
        next =>
          cases read
          exact ⟨List.forall_mem_nil _, ok⟩
  exact ⟨fun all tokens nodes rest ok read => (upTo tokens.length).keeps all _ _ _ ok read⟩

instance keeps_chain {suffix : List Node → Phrase} [one : Keeps T N left p]
    [each : ∀ left, Keeps T N left (suffix left)] : Keeps T N left (chain p suffix) := by
  have upTo (fuel : Nat) (left : List Node) : Keeps T N left (chainUpTo suffix fuel left) := by
    refine ⟨fun all tokens nodes rest ok read => ?_⟩
    induction fuel generalizing left tokens with
    | zero =>
      cases read
      exact ⟨all, ok⟩
    | succ fuel ih =>
      rw [chainUpTo] at read
      split at read
      next =>
        cases read
        exact ⟨all, ok⟩
      next next' middle fits =>
        obtain ⟨next_ok, middle_ok⟩ := (each left).keeps all _ _ _ ok fits
        exact ih next' next_ok _ middle_ok read
  refine ⟨fun all tokens nodes rest ok read => ?_⟩
  rw [chain] at read
  split at read
  next => cases read
  next made middle begins =>
    obtain ⟨made_ok, middle_ok⟩ := one.keeps all _ _ _ ok begins
    exact (upTo middle.length made).keeps made_ok _ _ _ middle_ok read

instance keeps_andThen {next' : List Node → Phrase} [one : Keeps T N left p]
    [each : ∀ left, Keeps T N left (next' left)] : Keeps T N left (andThen p next') := by
  refine ⟨fun all tokens nodes rest ok read => ?_⟩
  rw [andThen] at read
  split at read
  next => cases read
  next made middle begins =>
    obtain ⟨made_ok, middle_ok⟩ := one.keeps all _ _ _ ok begins
    exact (each made).keeps made_ok _ _ _ middle_ok read

/-- Nodes that are made of others keep what these have. -/
theorem keeps_map {f : List Node → List Node} (made : ∀ ns, (∀ n ∈ ns, N n) → ∀ n ∈ f ns, N n)
    [one : Keeps T N left p] : Keeps T N left (p.map f) := by
  refine ⟨fun all tokens nodes rest ok read => ?_⟩
  rw [Phrase.map] at read
  split at read
  next => cases read
  next found middle fits =>
    cases read
    obtain ⟨found_ok, rest_ok⟩ := one.keeps all _ _ _ ok fits
    exact ⟨made found found_ok, rest_ok⟩

instance keeps_test {passes : List Token → Bool} : Keeps T N left (test passes) := by
  refine ⟨fun _ tokens nodes rest ok read => ?_⟩
  rw [test] at read
  split at read
  next =>
    cases read
    exact ⟨List.forall_mem_nil _, ok⟩
  next => cases read

instance keeps_ahead : Keeps T N left (ahead p) := by
  unfold ahead
  infer_instance

instance keeps_notAhead : Keeps T N left (notAhead p) := by
  unfold notAhead
  infer_instance

instance keeps_sameLine : Keeps T N left sameLine := by
  unfold sameLine
  infer_instance

instance keeps_groupThen : Keeps T N left (groupThen p) := by
  unfold groupThen
  infer_instance

theorem keeps_emit_map {f : Node → Node} (made : ∀ n, N n → N (f n)) :
    Keeps T N left (emit (left.map f)) := by
  refine ⟨fun all tokens nodes rest ok read => ?_⟩
  cases read
  exact ⟨List.forall_mem_map.mpr fun n mem => made n (all n mem), ok⟩

/-- Each node that is made may be made into another one. -/
theorem keeps_map_map {f : Node → Node} (made : ∀ n, N n → N (f n)) [Keeps T N left p] :
    Keeps T N left (p.map fun nodes => nodes.map f) :=
  keeps_map fun _ all => List.forall_mem_map.mpr fun n mem => made n (all n mem)

variable [builds : Builds T N]

include builds

instance keeps_emit_withField {field : Field} :
    Keeps T N left (emit (left.map (Node.withField field))) :=
  keeps_emit_map (builds.withField field)

instance keeps_emit_asPattern : Keeps T N left (emit (left.map Node.asPattern)) :=
  keeps_emit_map builds.asPattern

instance keeps_build {kind : Kind} [other : IsFalse kind.isImport] [KeepsAll T N left ps] :
    Keeps T N left (build kind ps) :=
  keeps_map fun ns all =>
    List.forall_mem_singleton.mpr (builds.branch kind ns other.eq_false all)

instance keeps_extend {kind : Kind} {given : List Node} [IsFalse kind.isImport]
    [Keeps T N left (emit given)] [KeepsAll T N left ps] : Keeps T N left (extend kind given ps) := by
  unfold extend
  infer_instance

instance keeps_map_asPattern [Keeps T N left p] :
    Keeps T N left (p.map fun nodes => nodes.map Node.asPattern) :=
  keeps_map_map builds.asPattern

instance keeps_role {field : Field} [Keeps T N left p] : Keeps T N left (role field p) :=
  keeps_map_map (builds.withField field)

/-! ### Tokens -/

theorem keeps_leaf {kind : Kind} {passes : Token → Bool} (other : kind.isImport = false) :
    Keeps T N left (leaf kind passes) := by
  refine ⟨fun _ tokens nodes rest ok read => ?_⟩
  cases tokens with
  | nil => cases read
  | cons t later =>
    obtain ⟨t_ok, later_ok⟩ := List.forall_mem_cons.mp ok
    rw [leaf] at read
    split at read
    next =>
      cases read
      exact ⟨List.forall_mem_singleton.mpr (builds.leaf kind t other t_ok), later_ok⟩
    next => cases read

instance keeps_leaf_of_isFalse {kind : Kind} {passes : Token → Bool}
    [other : IsFalse kind.isImport] : Keeps T N left (leaf kind passes) :=
  keeps_leaf other.eq_false

instance keeps_stray : Keeps T N left stray := by
  refine ⟨fun _ tokens nodes rest ok read => ?_⟩
  cases tokens with
  | nil => cases read
  | cons t later =>
    obtain ⟨t_ok, later_ok⟩ := List.forall_mem_cons.mp ok
    cases read
    exact ⟨List.forall_mem_singleton.mpr (builds.stray t t_ok), later_ok⟩

instance keeps_token {kind : Kind} {expected : TokenKind} [IsFalse kind.isImport] :
    Keeps T N left (token kind expected) := keeps_leaf_of_isFalse

instance keeps_key {keyword : Keyword} : Keeps T N left (key keyword) :=
  keeps_leaf (by split <;> rfl)

instance keeps_keyAs {kind : Kind} {keyword : Keyword} [IsFalse kind.isImport] :
    Keeps T N left (keyAs kind keyword) := keeps_leaf_of_isFalse

instance keeps_mark {m : Punctuator} : Keeps T N left (mark m) :=
  keeps_leaf (by cases m <;> rfl)

instance keeps_name {kind : Kind} [IsFalse kind.isImport] : Keeps T N left (name kind) :=
  keeps_leaf_of_isFalse

instance keeps_anyWord {kind : Kind} [IsFalse kind.isImport] : Keeps T N left (anyWord kind) :=
  keeps_leaf_of_isFalse

instance keeps_semicolon : Keeps T N left semicolon := by
  unfold semicolon
  infer_instance

/-! ### Lists and braces -/

instance keeps_separated {m : Punctuator} [Keeps T N left p] : Keeps T N left (separated m p) := by
  unfold separated
  infer_instance

instance keeps_commaList [Keeps T N left p] : Keeps T N left (commaList p) := by
  unfold commaList
  infer_instance

instance keeps_closeBrace : Keeps T N left (closeBrace left) := by
  refine ⟨fun all tokens nodes rest ok read => ?_⟩
  cases tokens with
  | nil =>
    cases read
    exact ⟨List.forall_mem_append.mpr
      ⟨all, List.forall_mem_singleton.mpr (builds.absent left all)⟩, ok⟩
  | cons t later =>
    have marked : Keeps T N left ((mark .closeBrace).map (left ++ ·)) :=
      keeps_map fun ns ns_ok => List.forall_mem_append.mpr ⟨all, ns_ok⟩
    exact marked.keeps all _ _ _ ok read

instance keeps_braced {kind : Kind} [other : IsFalse kind.isImport] [Keeps T N left p] :
    Keeps T N left (braced kind p) :=
  keeps_map fun ns all =>
    List.forall_mem_singleton.mpr (builds.branch kind ns other.eq_false all)

end Phrase

end ModelGrid.Syntax
