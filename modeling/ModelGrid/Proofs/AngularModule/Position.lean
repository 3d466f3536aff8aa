import ModelGrid.Proofs.AngularModule.Registration
import ModelGrid.Proofs.Syntax.Range
import Mathlib.Data.Option.Basic

/-!
# Where a registration inserts

Whatever tree a module file has, as long as it is well formed, a registration inserts at edges of the
tree.  The class is declared strictly inside the metadata; the import goes behind a node that an import
statement of the file has at most three steps down, and so is never inside the metadata.

## Main definitions

* `ClosesIn`: the offset is behind the last construct between brackets, or in front of the closing one.
* `BehindImport`: the offset is behind a node of an import statement, or at the top of the file.

## Main results

* `isEdge_of_mem_plan`: additions are made at edges.
* `pairwise_offset_ne_plan`: no two additions are made at one offset.
-/

namespace ModelGrid.AngularModule.Registration

open Syntax Syntax.Node Syntax.Place

variable {file : Document} {root : Node} {addition : Addition} {offset : Nat}

/-! ### The metadata -/

/-- The metadata is an object three steps below a decorator, inside of a call. -/
theorem metadataOf?_eq_some {decorator metadata : Place}
    (h : metadataOf? file decorator = some metadata) :
    decorator.node.kind = .decorator ∧ metadata.node.kind = .object ∧
      ∃ call arguments : Place, call.IsChild decorator ∧ call.node.kind = .callExpression ∧
        arguments.IsChild call ∧ metadata.IsChild arguments := by
  simp only [metadataOf?, Option.bind_eq_bind, Option.bind_eq_some_iff, Option.guard_eq_some',
    exists_const] at h
  obtain ⟨is_decorator, call, call_found, function, -, -, arguments, arguments_found, argument,
    argument_found, is_object, eq⟩ := h
  cases eq
  have is_call : call.node.kind = .callExpression := by simpa using List.find?_some call_found
  exact ⟨by simpa using is_decorator, by simpa using is_object, call, arguments,
    (isChild_of_mem_constructs (List.mem_of_find?_eq_some call_found)).1, is_call,
    isChild_of_childOf? arguments_found,
    (isChild_of_mem_constructs (List.mem_of_head? argument_found)).1⟩

/-- The metadata of a decorator of the file is an object of the file. -/
theorem isIn_of_metadataOf? {decorator metadata : Place} (in_file : decorator ∈ file.places)
    (h : metadataOf? file decorator = some metadata) :
    metadata.IsIn file.root ∧ metadata.node.kind = .object := by
  obtain ⟨-, is_object, call, arguments, call_step, -, arguments_step, metadata_step⟩ :=
    metadataOf?_eq_some h
  exact ⟨metadata_step.isIn (arguments_step.isIn (call_step.isIn (isIn_of_mem_places in_file))),
    is_object⟩

/-! ### The declarations -/

/-- The offset is behind the last construct of a group in brackets, or in front of the closing
bracket. -/
def ClosesIn (group : Place) (offset : Nat) : Prop :=
  offset = group.node.stop - 1 ∨ ∃ last ∈ group.constructs, offset = last.node.stop

theorem closesIn_newDeclarations (file : Document) (metadata : Place) (className : List Char) :
    ClosesIn metadata (newDeclarations file metadata className).offset := by
  rw [newDeclarations]
  split
  next => exact .inl rfl
  next last found => exact .inr ⟨last, List.mem_of_getLast? found, rfl⟩

theorem closesIn_of_newElement? {array : Place} {className : List Char}
    (h : newElement? file array className = some addition) : ClosesIn array addition.offset := by
  rw [newElement?] at h
  dsimp only at h
  split at h
  next => cases h
  next =>
    split at h
    next =>
      cases h
      exact .inl rfl
    next last found =>
      cases h
      exact .inr ⟨last, List.mem_of_getLast? found, rfl⟩

/-- The class is declared in the metadata itself, or in an array that is the value of one of its
entries. -/
theorem closesIn_of_declarationAddition? {metadata : Place} {className : List Char}
    (h : declarationAddition? file metadata className = some addition) :
    ClosesIn metadata addition.offset ∨
      ∃ property ∈ metadata.constructs, ∃ array : Place, array.IsChild property ∧
        array.node.kind = .array ∧ ClosesIn array addition.offset := by
  rw [declarationAddition?] at h
  split at h
  next =>
    cases h
    exact .inl (closesIn_newDeclarations file metadata className)
  next property found =>
    split at h
    next => cases h
    next value value_found =>
      split at h
      next is_array =>
        exact .inr ⟨property, List.mem_of_find?_eq_some found, value,
          isChild_of_childOf? value_found, by simpa using is_array, closesIn_of_newElement? h⟩
      next => cases h

theorem bracketed_of_wellFormed {text : List Char} {n : Node} (h : WellFormed text n)
    (kind : n.kind = .array ∨ n.kind = .object ∨ n.kind = .namedImports) : Bracketed n := by
  cases h with
  | node label children _ _ _ _ _ bracketed => exact bracketed kind

/-- Behind the last construct in brackets is inside of them, at an edge. -/
theorem ClosesIn.inside {group : Place} (closes : ClosesIn group offset)
    (wellFormed : WellFormed file.text file.root) (there : group.IsIn file.root)
    (kind : group.node.kind = .array ∨ group.node.kind = .object) :
    IsEdge file.root offset ∧ group.node.start < offset ∧ offset < group.node.stop := by
  have formed := wellFormed.isIn there.node
  have bracketed := bracketed_of_wellFormed formed (by tauto)
  have room := bracketed.room formed.ordered
  rcases closes with rfl | ⟨last, mem, rfl⟩
  · exact ⟨bracketed.isEdge_close there.node, by omega, by omega⟩
  · obtain ⟨step, named⟩ := isChild_of_mem_constructs mem
    have inside := bracketed.inside formed.ordered step.mem named
    have le := (formed.ordered.child step.mem).le
    exact ⟨.stop (step.isIn there).node, by omega, by omega⟩

/-- **The class is declared strictly inside the metadata.** -/
theorem inside_of_declarationAddition? {metadata : Place} {className : List Char}
    (h : declarationAddition? file metadata className = some addition)
    (wellFormed : WellFormed file.text file.root) (there : metadata.IsIn file.root)
    (kind : metadata.node.kind = .object) :
    IsEdge file.root addition.offset ∧ metadata.node.start < addition.offset ∧
      addition.offset < metadata.node.stop := by
  rcases closesIn_of_declarationAddition? h with closes | ⟨property, mem, array, step, is_array, closes⟩
  · exact closes.inside wellFormed there (.inr kind)
  · obtain ⟨property_step, named⟩ := isChild_of_mem_constructs mem
    have formed := wellFormed.isIn there.node
    have bracketed := bracketed_of_wellFormed formed (by tauto)
    have property_inside := bracketed.inside formed.ordered property_step.mem named
    have property_ordered := formed.ordered.child property_step.mem
    have array_inside := property_ordered.inOrder.bounds step.mem
    have closed := closes.inside wellFormed (step.isIn (property_step.isIn there)) (.inl is_array)
    exact ⟨closed.1, by omega, by omega⟩

/-! ### The import -/

/-- An import has its source one step and its names in braces two steps below its statement. -/
theorem importOf?_eq_some {statement : Place} {found : Import}
    (h : importOf? file statement = some found) :
    statement.node.kind = .importStatement ∧ found.source.IsChild statement ∧
      ∀ group, found.named = some group → group.node.kind = .namedImports ∧
        ∃ clause : Place, clause.IsChild statement ∧ group.IsChild clause := by
  simp only [importOf?, Option.bind_eq_bind, Option.bind_eq_some_iff, Option.guard_eq_some',
    exists_const] at h
  obtain ⟨is_import, source, source_found, eq⟩ := h
  cases eq
  refine ⟨by simpa using is_import, isChild_of_childOf? source_found, fun group named => ?_⟩
  obtain ⟨clause, clause_found, group_found⟩ := Option.bind_eq_some_iff.mp named
  have is_names : group.node.kind = .namedImports := by simpa using List.find?_some group_found
  exact ⟨is_names, clause,
    (isChild_of_mem_constructs (List.mem_of_find?_eq_some clause_found)).1,
    (isChild_of_mem_constructs (List.mem_of_find?_eq_some group_found)).1⟩

/-- The offset is at the top of the file, or behind a node that is at most three steps below an import
statement of the file. -/
def BehindImport (root : Node) (offset : Nat) : Prop :=
  offset = 0 ∨ ∃ (i : Nat) (way : List Nat) (statement x : Node),
    root.children[i]? = some statement ∧ statement.kind = .importStatement ∧ way.length ≤ 3 ∧
    below? (i :: way) root = some x ∧ offset = x.stop

theorem BehindImport.isEdge (h : BehindImport root offset) : IsEdge root offset := by
  rcases h with rfl | ⟨i, way, statement, x, _, _, _, there, rfl⟩
  · exact .inl rfl
  · exact .stop ⟨_, there⟩

/-- A statement at the top of a file is a child of the root. -/
theorem wayTo_eq_of_isChild_root {statement : Place} (step : statement.IsChild (Place.root root)) :
    ∃ i, wayTo statement.above = [i] ∧ root.children[i]? = some statement.node := by
  obtain ⟨i, way⟩ := step.wayTo_eq
  have way' : wayTo statement.above = [i] := way
  have there := (step.isIn (isIn_root root)).below?
  rw [way'] at there
  obtain ⟨child, child_there, eq⟩ := Option.bind_eq_some_iff.mp there
  cases eq
  exact ⟨i, way', child_there⟩

/-- A specifier is added behind the last one of its group, or behind the brace of an empty group. -/
theorem behindImport_of_newSpecifier? {symbol : List Char} {group : Place} {i j k : Nat}
    {statement : Node} (wellFormed : WellFormed file.text file.root) (group_in : group.IsIn file.root)
    (group_kind : group.node.kind = .namedImports) (way : wayTo group.above = [i, j, k])
    (statement_there : file.root.children[i]? = some statement)
    (kind : statement.kind = .importStatement)
    (h : newSpecifier? file group symbol = some addition) :
    BehindImport file.root addition.offset := by
  rw [newSpecifier?] at h
  split at h
  next => cases h
  next =>
    split at h
    next last last_found =>
      cases h
      obtain ⟨last_step, -⟩ := isChild_of_mem_constructs (List.mem_of_getLast? last_found)
      obtain ⟨l, last_way⟩ := last_step.wayTo_eq
      have there := (last_step.isIn group_in).below?
      rw [last_way, way] at there
      exact .inr ⟨i, [j, k, l], statement, last.node, statement_there, kind, by simp, there, rfl⟩
    next =>
      cases h
      have bracketed := bracketed_of_wellFormed (wellFormed.isIn group_in.node)
        (.inr (.inr group_kind))
      obtain ⟨first, first_there, stop⟩ := bracketed.below?_open
      have there := group_in.below?_append [0]
      rw [way, first_there] at there
      exact .inr ⟨i, [j, k, 0], statement, first, statement_there, kind, by simp, there, stop⟩

/-- An import is added behind a node of an import statement, or at the top of the file. -/
theorem behindImport_of_importAddition? {symbol path : List Char}
    (wellFormed : WellFormed file.text file.root)
    (h : importAddition? file symbol path = some addition) :
    BehindImport file.root addition.offset := by
  have of_mem {found : Import} (mem : found ∈ imports file) :
      ∃ statement : Place, importOf? file statement = some found ∧
        statement.IsChild (Place.root file.root) := by
    obtain ⟨statement, statement_mem, is_import⟩ := List.mem_filterMap.mp mem
    exact ⟨statement, is_import, (isChild_of_mem_constructs statement_mem).1⟩
  rw [importAddition?] at h
  dsimp only at h
  split at h
  next existing found =>
    obtain ⟨group, named, more⟩ := Option.bind_eq_some_iff.mp h
    obtain ⟨statement, is_import, step⟩ := of_mem (List.mem_of_find?_eq_some found)
    obtain ⟨kind, -, names⟩ := importOf?_eq_some is_import
    obtain ⟨group_kind, clause, clause_step, group_step⟩ := names group named
    obtain ⟨i, way, statement_there⟩ := wayTo_eq_of_isChild_root step
    obtain ⟨j, clause_way⟩ := clause_step.wayTo_eq
    obtain ⟨k, group_way⟩ := group_step.wayTo_eq
    have group_in := group_step.isIn (clause_step.isIn (step.isIn (isIn_root file.root)))
    have group_way' : wayTo group.above = [i, j, k] := by simp [group_way, clause_way, way]
    exact behindImport_of_newSpecifier? wellFormed group_in group_kind group_way' statement_there kind
      more
  next =>
    split at h
    next last last_found =>
      cases h
      obtain ⟨statement, is_import, step⟩ := of_mem (List.mem_of_getLast? last_found)
      obtain ⟨kind, source_step, -⟩ := importOf?_eq_some is_import
      obtain ⟨i, way, statement_there⟩ := wayTo_eq_of_isChild_root step
      obtain ⟨j, source_way⟩ := source_step.wayTo_eq
      have there := (source_step.isIn (step.isIn (isIn_root file.root))).below?
      rw [source_way, way] at there
      exact .inr ⟨i, [j], statement.node, last.source.node, statement_there, kind, by simp, there, rfl⟩
    next =>
      cases h
      exact .inl rfl

/-! ### Both -/

/-- No node at most three steps below an import statement is in the metadata: a decorator is no such
statement, and a decorator inside of one has its metadata deeper. -/
theorem not_wayTo_prefix {decorator metadata : Place} (in_file : decorator.IsIn file.root)
    (h : metadataOf? file decorator = some metadata) {i : Nat} {way : List Nat} {statement : Node}
    (statement_there : file.root.children[i]? = some statement)
    (is_import : statement.kind = .importStatement) (short : way.length ≤ 3) :
    ¬ wayTo metadata.above <+: i :: way := by
  obtain ⟨is_decorator, -, call, arguments, call_step, is_call, arguments_step, metadata_step⟩ :=
    metadataOf?_eq_some h
  obtain ⟨a, call_way⟩ := call_step.wayTo_eq
  obtain ⟨b, arguments_way⟩ := arguments_step.wayTo_eq
  obtain ⟨c, metadata_way⟩ := metadata_step.wayTo_eq
  have way_eq : wayTo metadata.above = wayTo decorator.above ++ [a, b, c] := by
    simp [metadata_way, arguments_way, call_way]
  have first (k : Nat) (n : Node) (there : below? [k] file.root = some n)
      (other : n.kind ≠ .importStatement) : k ≠ i := by
    rintro rfl
    rw [below?, statement_there] at there
    cases there
    exact other is_import
  rw [way_eq]
  intro front
  cases above : wayTo decorator.above with
  | nil =>
    -- the decorator is the root, and the call is its child
    have call_there := (call_step.isIn in_file).below?
    rw [call_way, above] at call_there
    rw [above] at front
    exact first a call.node call_there (by simp [is_call]) (List.cons_prefix_cons.mp front).1
  | cons k rest =>
    rw [above] at front
    obtain ⟨same, front⟩ := List.cons_prefix_cons.mp front
    cases rest with
    | nil =>
      have decorator_there := in_file.below?
      rw [above] at decorator_there
      exact first k decorator.node decorator_there (by simp [is_decorator]) same
    | cons k' rest =>
      have long := front.length_le
      simp at long
      omega

/-- What the two additions of a plan are. -/
theorem mem_plan {className importPath : String} (mem : addition ∈ plan file className importPath) :
    ∃ decorator metadata : Place, decorator ∈ file.places ∧
      metadataOf? file decorator = some metadata ∧
      ∃ declaration, declarationAddition? file metadata className.toList = some declaration ∧
        plan file className importPath =
          declaration :: (importAddition? file className.toList importPath.toList).toList := by
  rw [plan] at mem ⊢
  cases metadata_found : metadata? file with
  | none => simp [metadata_found] at mem
  | some metadata =>
    cases declaration_found : declarationAddition? file metadata className.toList with
    | none => simp [metadata_found, declaration_found] at mem
    | some declaration =>
      obtain ⟨decorator, decorator_mem, is_metadata⟩ := List.exists_of_findSome?_eq_some metadata_found
      exact ⟨decorator, metadata, decorator_mem, is_metadata, declaration, declaration_found, by
        simp [declaration_found]⟩

/-- **Additions are made at edges** of the tree. -/
theorem isEdge_of_mem_plan {className importPath : String}
    (wellFormed : WellFormed file.text file.root)
    (mem : addition ∈ plan file className importPath) : IsEdge file.root addition.offset := by
  obtain ⟨decorator, metadata, in_file, is_metadata, declaration, declared, plan_eq⟩ := mem_plan mem
  obtain ⟨metadata_in, is_object⟩ := isIn_of_metadataOf? in_file is_metadata
  rw [plan_eq] at mem
  rcases List.mem_cons.mp mem with rfl | mem
  · exact (inside_of_declarationAddition? declared wellFormed metadata_in is_object).1
  · exact (behindImport_of_importAddition? wellFormed (Option.mem_toList.mp mem)).isEdge

/-- **No two additions are made at one offset.** -/
theorem pairwise_offset_ne_plan (wellFormed : WellFormed file.text file.root)
    (className importPath : String) :
    (plan file className importPath).Pairwise fun a b => a.offset ≠ b.offset := by
  cases none_planned : plan file className importPath with
  | nil => exact .nil
  | cons first rest =>
    obtain ⟨decorator, metadata, in_file, is_metadata, declaration, declared, plan_eq⟩ :=
      mem_plan (none_planned ▸ List.mem_cons_self : first ∈ plan file className importPath)
    obtain ⟨metadata_in, is_object⟩ := isIn_of_metadataOf? in_file is_metadata
    have decorator_in := isIn_of_mem_places in_file
    have inside := inside_of_declarationAddition? declared wellFormed metadata_in is_object
    rw [← none_planned, plan_eq]
    cases imported : importAddition? file className.toList importPath.toList with
    | none => simp
    | some addition =>
      have ne : declaration.offset ≠ addition.offset := by
        rcases behindImport_of_importAddition? wellFormed imported with
          top | ⟨i, way, statement, x, statement_there, is_import, short, x_there, behind⟩
        · omega
        · have not_below := not_wayTo_prefix decorator_in is_metadata statement_there is_import short
          have apart := wellFormed.ordered.apart x_there metadata_in.below? not_below
          have x_le := (wellFormed.ordered.descend x_there).le
          omega
      simpa using ne

end ModelGrid.AngularModule.Registration
