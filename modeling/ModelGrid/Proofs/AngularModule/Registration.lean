import ModelGrid.AngularModule.Registration
import ModelGrid.Proofs.Text.Parts

/-!
# What a registration inserts

## Main definitions

* `importStatement`: the statement that imports a symbol.

## Main results

* `importAddition?_eq_some`: the two ways to import a symbol.
-/

namespace ModelGrid.AngularModule.Registration

open Syntax

/-- The statement that imports a symbol. -/
def importStatement (symbol path : List Char) : List Char :=
  "import \x7b ".toList ++ symbol ++ " \x7d from '".toList ++ path ++ ['\'']

/-- **What is inserted to import a symbol** is one more name in the first import from the path, or,
where there is none, a statement with this path. -/
theorem importAddition?_eq_some {file : Document} {symbol path : List Char} {addition : Addition}
    (h : importAddition? file symbol path = some addition) :
    (∃ existing ∈ imports file, existing.path = path ∧
      ∃ group, existing.named = some group ∧ newSpecifier? file group symbol = some addition) ∨
    ((∀ existing ∈ imports file, existing.path ≠ path) ∧
      importStatement symbol path <:+: addition.text.toList) := by
  rw [importAddition?] at h
  dsimp only at h
  split at h
  next existing found =>
    obtain ⟨group, named, more⟩ := Option.bind_eq_some_iff.mp h
    have same : existing.path = path := by simpa using List.find?_some found
    exact .inl ⟨existing, List.mem_of_find?_eq_some found, same, group, named, more⟩
  next none_there =>
    refine .inr ⟨fun existing mem => by simpa using List.find?_eq_none.mp none_there existing mem, ?_⟩
    split at h
    next =>
      cases h
      rw [String.toList_ofList]
      exact (List.suffix_append _ _).isInfix
    next =>
      cases h
      rw [String.toList_ofList]
      exact (List.prefix_append _ _).isInfix

end ModelGrid.AngularModule.Registration
