import ModelGrid.Proofs.AngularModule.ImportPath
import ModelGrid.Proofs.Store.Path

/-!
# Imports between folders that are written in names

From a module file whose path is written in names only, an import leads to its target, wherever the
target is: below the module's folder, above it, beside it, or outside of the workspace.  A target may
have dots; they are followed in the import as they would be in the target itself.

Both paths count as the segments they are made of.  So slashes at the front and slashes behind another
slash are the same path written otherwise (`segmentsOf_plainSlashes`).

## Main definitions

* `Path.plainSlashes`: a path without the slashes that do not count.

## Main results

* `resolveImport_relativeImport`: an import leads to its target.
-/

namespace ModelGrid

namespace Store.Path

/-- A path without the slashes behind another slash. -/
def singleSlashes : List Char → List Char
  | [] => []
  | c :: cs =>
    if c == '/' && cs.head? == some '/' then singleSlashes cs else c :: singleSlashes cs

/-- A path without the slashes at its front and those behind another slash. -/
def plainSlashes (path : List Char) : List Char :=
  singleSlashes (Text.dropLeading '/' path)

theorem filter_cons_congr {α : Type} {p : α → Bool} (a : α) {xs ys : List α}
    (later : xs.filter p = ys.filter p) : (a :: xs).filter p = (a :: ys).filter p := by
  rw [List.filter_cons, List.filter_cons, later]

/-- A slash in front of another one begins an empty stretch.  The first stretch is kept apart here,
since it grows when a character is put in front. -/
theorem splitOn_singleSlashes (path : List Char) :
    (Text.splitOn '/' (singleSlashes path)).head? = (Text.splitOn '/' path).head? ∧
      (Text.splitOn '/' (singleSlashes path)).tail.filter (fun s => !s.isEmpty) =
        (Text.splitOn '/' path).tail.filter fun s => !s.isEmpty := by
  induction path with
  | nil => exact ⟨rfl, rfl⟩
  | cons c cs ih =>
    rw [singleSlashes]
    split
    next twice =>
      simp only [Bool.and_eq_true, beq_iff_eq] at twice
      obtain ⟨rfl, next⟩ := twice
      obtain ⟨rest, rfl⟩ := List.head?_eq_some_iff.mp next
      simpa [Text.splitOn] using ih
    next =>
      obtain ⟨first, later⟩ := ih
      obtain ⟨s, ss, eq⟩ := List.exists_cons_of_ne_nil (Text.splitOn_ne_nil '/' cs)
      obtain ⟨t, ts, eq'⟩ := List.exists_cons_of_ne_nil (Text.splitOn_ne_nil '/' (singleSlashes cs))
      rw [eq, eq'] at first later
      obtain rfl : t = s := by simpa using first
      rw [Text.splitOn, Text.splitOn, eq, eq']
      split
      next => exact ⟨rfl, filter_cons_congr t later⟩
      next => exact ⟨rfl, later⟩

/-- **Slashes at the front and behind another slash** do not count. -/
theorem segmentsOf_plainSlashes (path : List Char) :
    segmentsOf (plainSlashes path) = segmentsOf path := by
  rw [plainSlashes, ← segmentsOf_dropLeading path]
  obtain ⟨first, later⟩ := splitOn_singleSlashes (Text.dropLeading '/' path)
  rw [segmentsOf, segmentsOf]
  obtain ⟨s, ss, eq⟩ := List.exists_cons_of_ne_nil
    (Text.splitOn_ne_nil '/' (singleSlashes (Text.dropLeading '/' path)))
  obtain ⟨t, ts, eq'⟩ := List.exists_cons_of_ne_nil
    (Text.splitOn_ne_nil '/' (Text.dropLeading '/' path))
  rw [eq, eq'] at first later ⊢
  obtain rfl : s = t := by simpa using first
  exact filter_cons_congr s later

end Store.Path

namespace AngularModule

open Store

theorem commonLength_le (folder target : List (List Char)) :
    commonLength folder target ≤ folder.length ∧ commonLength folder target ≤ target.length := by
  induction folder generalizing target with
  | nil => exact ⟨Nat.le_refl 0, Nat.zero_le _⟩
  | cons a as ih =>
    cases target with
    | nil => exact ⟨Nat.zero_le _, Nat.le_refl 0⟩
    | cons b bs =>
      rw [commonLength, List.length_cons, List.length_cons]
      split
      · exact ⟨Nat.succ_le_succ (ih bs).1, Nat.succ_le_succ (ih bs).2⟩
      · exact ⟨Nat.zero_le _, Nat.zero_le _⟩

/-- An import depends on the segments of the two paths only. -/
theorem relativeImport_congr {moduleFile moduleFile' target target' : String}
    (from_same : Path.segmentsOf moduleFile'.toList = Path.segmentsOf moduleFile.toList)
    (to_same : Path.segmentsOf target'.toList = Path.segmentsOf target.toList) :
    relativeImport moduleFile' target' = relativeImport moduleFile target := by
  rw [relativeImport, relativeImport, from_same, to_same]

/-- **An import leads to its target**: where the path of the module file has no dots, following what
is written from the module's folder ends where the target does.  Slashes at the front of a path and
behind another slash change nothing, and what the folder and the target have in common is never longer
than either, whatever the paths are. -/
theorem resolveImport_relativeImport (moduleFile target : String) :
    ((∀ segment ∈ Path.segmentsOf moduleFile.toList, IsName segment) →
      resolveImport moduleFile (relativeImport moduleFile target) =
        normalizeSegments (Path.segmentsOf target.toList)) ∧
    (∀ moduleFile' target' : String,
      Path.plainSlashes moduleFile'.toList = Path.plainSlashes moduleFile.toList →
      Path.plainSlashes target'.toList = Path.plainSlashes target.toList →
      relativeImport moduleFile' target' = relativeImport moduleFile target) ∧
    let folder := (Path.segmentsOf moduleFile.toList).dropLast
    let segments := Path.segmentsOf target.toList
    commonLength folder segments ≤ folder.length ∧
      commonLength folder segments ≤ segments.length := by
  refine ⟨fun names => ?_, fun moduleFile' target' from_same to_same => ?_, commonLength_le _ _⟩
  · refine (resolveImport_relativeImport_iff moduleFile target).mpr fun segment mem => ?_
    exact names segment (List.mem_of_mem_dropLast (List.mem_of_mem_drop mem))
  · refine relativeImport_congr ?_ ?_
    · rw [← Path.segmentsOf_plainSlashes, from_same, Path.segmentsOf_plainSlashes]
    · rw [← Path.segmentsOf_plainSlashes, to_same, Path.segmentsOf_plainSlashes]

/-- A target that climbs out of the module's folder, out of its own and out of the workspace. -/
theorem resolveImport_relativeImport_climbing :
    let moduleFile := "//src/app//core/core.module.ts"
    let target := "src/./app/../../..//shared/list.component"
    (∀ segment ∈ Path.segmentsOf moduleFile.toList, IsName segment) ∧
      relativeImport moduleFile target = "../.././app/../../../shared/list.component" ∧
      resolveImport moduleFile (relativeImport moduleFile target) =
        [up, "shared".toList, "list.component".toList] ∧
      relativeImport "src/app/core/core.module.ts" target = relativeImport moduleFile target := by
  intro moduleFile target
  have names : ∀ segment ∈ Path.segmentsOf moduleFile.toList, IsName segment := by
    unfold IsName
    decide +kernel
  obtain ⟨leads, slashes, -⟩ := resolveImport_relativeImport moduleFile target
  exact ⟨names, by decide +kernel, (leads names).trans (by decide +kernel),
    slashes _ _ (by decide +kernel) rfl⟩

end AngularModule

end ModelGrid
