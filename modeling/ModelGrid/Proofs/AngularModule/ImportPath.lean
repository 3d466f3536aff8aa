import ModelGrid.AngularModule.ImportPath
import ModelGrid.Proofs.Text.Line
import Mathlib.Algebra.BigOperators.Group.List.Basic
import Mathlib.Tactic.Linarith

/-!
# Where imports lead

An import leads from a module file to its target if the module's folder, from where it parts from the
way to the target, is written in names only.  Each dot there makes it lead too far out.

The level of a folder says by how many steps down it differs from the folder it began in.  Every
segment moves by the same number of levels wherever it is followed (`level_foldl_followSegment`), and
this number tells names from dots.

## Main definitions

* `IsName`: the segment leads down by one level.
* `offWay`: the segments of a folder that are not on the way to a target.

## Main results

* `segmentsOf_relativeImport`: the segments that are written.
* `resolveImport_relativeImport_iff`: when an import leads to its target.
-/

namespace ModelGrid.AngularModule

open Store

/-! ### Written segments -/

theorem mem_segmentsOf {path segment : List Char} (h : segment ∈ Path.segmentsOf path) :
    segment ≠ [] ∧ '/' ∉ segment := by
  obtain ⟨mem, some_char⟩ := List.mem_filter.mp h
  exact ⟨by simpa using some_char, Text.not_mem_of_mem_splitOn mem⟩

/-- **Segments are read as they are written.** -/
theorem segmentsOf_joinSegments {segments : List (List Char)}
    (clean : ∀ segment ∈ segments, segment ≠ [] ∧ '/' ∉ segment) :
    Path.segmentsOf (joinSegments segments) = segments := by
  by_cases none_there : segments = []
  · subst none_there
    rfl
  · rw [Path.segmentsOf, joinSegments,
      Text.splitOn_intercalate none_there fun segment mem => (clean segment mem).2]
    exact List.filter_eq_self.mpr fun segment mem => by simpa using (clean segment mem).1

theorem segmentsOf_stay (path : List Char) :
    Path.segmentsOf (stay ++ '/' :: path) = stay :: Path.segmentsOf path := by
  rw [Path.segmentsOf, Text.splitOn_append_cons (by decide)]
  rfl

theorem mem_relativeSegments {folder target : List (List Char)} {segment : List Char}
    (h : segment ∈ relativeSegments folder target) : segment = up ∨ segment ∈ target := by
  rcases List.mem_append.mp h with out | down
  · exact .inl (List.eq_of_mem_replicate out)
  · exact .inr (List.mem_of_mem_drop down)

/-- The segments of an import, apart from a dot in front. -/
theorem segmentsOf_relativeImport (moduleFile target : String) :
    let segments := relativeSegments (Path.segmentsOf moduleFile.toList).dropLast
      (Path.segmentsOf target.toList)
    Path.segmentsOf (relativeImport moduleFile target).toList = segments ∨
      Path.segmentsOf (relativeImport moduleFile target).toList = stay :: segments := by
  intro segments
  have clean : ∀ segment ∈ segments, segment ≠ [] ∧ '/' ∉ segment := by
    intro segment mem
    rcases mem_relativeSegments mem with rfl | mem
    · exact ⟨by decide, by decide⟩
    · exact mem_segmentsOf mem
  have joined := segmentsOf_joinSegments clean
  rw [relativeImport, String.toList_ofList]
  split
  · exact .inl joined
  · exact .inr ((segmentsOf_stay _).trans (congrArg _ joined))

/-! ### Following segments -/

/-- The segment leads down by one level. -/
def IsName (segment : List Char) : Prop := segment ≠ stay ∧ segment ≠ up

@[simp] theorem followSegment_stay (behind : List (List Char)) : followSegment behind stay = behind :=
  rfl

theorem followSegment_of_isName {segment : List Char} (name : IsName segment)
    (behind : List (List Char)) : followSegment behind segment = segment :: behind := by
  simp [followSegment, name.1, name.2]

theorem followSegment_up_cons (last : List Char) (rest : List (List Char)) :
    followSegment (last :: rest) up = if last == up then up :: last :: rest else rest := by
  have not_stay : (up == stay) = false := by decide
  simp [followSegment, not_stay]

theorem followSegment_up_of_isName {segment : List Char} (name : IsName segment)
    (behind : List (List Char)) : followSegment (segment :: behind) up = behind := by
  simp [followSegment_up_cons, name.2]

/-- **As many steps out as there are names** undo the steps into them. -/
theorem foldl_followSegment_out {names : List (List Char)} (all : ∀ name ∈ names, IsName name)
    (behind : List (List Char)) :
    (names ++ List.replicate names.length up).foldl followSegment behind = behind := by
  induction names generalizing behind with
  | nil => rfl
  | cons name names ih =>
    have later := ih (fun n mem => all n (List.mem_cons_of_mem name mem)) (name :: behind)
    have shape : name :: names ++ List.replicate (name :: names).length up =
        name :: (names ++ List.replicate names.length up) ++ [up] := by
      simp [List.replicate_succ']
    rw [shape, List.foldl_append, List.foldl_cons, List.foldl_nil, List.foldl_cons,
      followSegment_of_isName (all name (by simp)), later,
      followSegment_up_of_isName (all name (by simp))]

/-! ### Levels -/

/-- The number of levels by which a segment leads down. -/
def levels (segment : List Char) : Int :=
  if segment = stay then 0 else if segment = up then -1 else 1

/-- The number of levels by which followed segments lead down. -/
def level (behind : List (List Char)) : Int :=
  (behind.map fun segment => if segment = up then -1 else 1).sum

theorem level_followSegment (behind : List (List Char)) (segment : List Char) :
    level (followSegment behind segment) = level behind + levels segment := by
  by_cases here : segment = stay
  · simp [here, levels]
  by_cases out : segment = up
  · have levels_up : levels up = -1 := by decide
    rw [out, levels_up]
    cases behind with
    | nil => decide
    | cons last rest =>
      rw [followSegment_up_cons]
      by_cases outside : last = up
      · simp [outside, level]
        omega
      · simp [outside, level]
  · rw [followSegment_of_isName ⟨here, out⟩]
    simp [level, levels, here, out]
    omega

/-- **A segment moves by the same number of levels wherever it is followed.** -/
theorem level_foldl_followSegment (segments behind : List (List Char)) :
    level (segments.foldl followSegment behind) = level behind + (segments.map levels).sum := by
  induction segments generalizing behind with
  | nil => simp
  | cons segment rest ih =>
    rw [List.foldl_cons, ih, level_followSegment, List.map_cons, List.sum_cons]
    omega

theorem levels_eq_one_iff {segment : List Char} : levels segment = 1 ↔ IsName segment := by
  unfold levels IsName
  split
  · simp_all
  · split <;> simp_all

/-- Segments lead down by one level each only if all of them are names. -/
theorem sum_levels_le (segments : List (List Char)) :
    (segments.map levels).sum ≤ segments.length ∧
      ((segments.map levels).sum = segments.length → ∀ segment ∈ segments, IsName segment) := by
  induction segments with
  | nil => simp
  | cons segment rest ih =>
    have at_most : levels segment ≤ 1 := by
      unfold levels
      split
      · omega
      · split <;> omega
    rw [List.map_cons, List.sum_cons, List.length_cons, Nat.cast_add, Nat.cast_one]
    refine ⟨by omega, fun all s mem => ?_⟩
    rcases List.mem_cons.mp mem with rfl | mem
    · exact levels_eq_one_iff.mp (by omega)
    · exact ih.2 (by omega) s mem

/-! ### Imports -/

/-- The segments of the folder that are not on the way to the target. -/
def offWay (folder target : List (List Char)) : List (List Char) :=
  folder.drop (commonLength folder target)

theorem take_commonLength (folder target : List (List Char)) :
    folder.take (commonLength folder target) = target.take (commonLength folder target) := by
  induction folder generalizing target with
  | nil => simp [commonLength]
  | cons a as ih =>
    cases target with
    | nil => simp [commonLength]
    | cons b bs =>
      by_cases same : a = b
      · simp [commonLength, same, ih]
      · simp [commonLength, same]

/-- **Out of a folder and down to a target**: the segments lead there if and only if the folder, from
where it parts from the way to the target, is written in names only. -/
theorem normalizeSegments_relativeSegments_iff (folder target : List (List Char)) :
    normalizeSegments (folder ++ relativeSegments folder target) = normalizeSegments target ↔
      ∀ segment ∈ offWay folder target, IsName segment := by
  set common := commonLength folder target with common_def
  set start := (target.take common).foldl followSegment []
  have folder_parts : folder = target.take common ++ offWay folder target := by
    rw [← take_commonLength folder target, offWay, List.take_append_drop]
  have out : folder.length - common = (offWay folder target).length := by
    rw [offWay, List.length_drop]
  have written : (folder ++ relativeSegments folder target).foldl followSegment [] =
      (target.drop common).foldl followSegment
        ((offWay folder target ++ List.replicate (offWay folder target).length up).foldl followSegment
          start) := by
    rw [relativeSegments, ← common_def, out]
    have whole := congrArg (fun front => (front ++ (List.replicate (offWay folder target).length up ++
      target.drop common)).foldl followSegment []) folder_parts
    exact whole.trans (by simp only [List.foldl_append, start])
  have meant : target.foldl followSegment [] = (target.drop common).foldl followSegment start := by
    conv_lhs => rw [← List.take_append_drop common target]
    rw [List.foldl_append]
  rw [normalizeSegments, normalizeSegments, List.reverse_inj, written, meant]
  constructor
  · intro leads
    have same_level := congrArg level leads
    have steps_out (n : Nat) : ((List.replicate n up).map levels).sum = -n := by
      rw [List.map_replicate, List.sum_replicate]
      simp [levels, up, stay]
    simp only [level_foldl_followSegment, List.map_append, List.sum_append, steps_out] at same_level
    exact (sum_levels_le _).2 (by omega)
  · intro names
    rw [foldl_followSegment_out names]

/-- **An import leads to its target** if and only if the folder of the module file, from where it parts
from the way to the target, is written in names only. -/
theorem resolveImport_relativeImport_iff (moduleFile target : String) :
    resolveImport moduleFile (relativeImport moduleFile target) =
        normalizeSegments (Path.segmentsOf target.toList) ↔
      ∀ segment ∈ offWay (Path.segmentsOf moduleFile.toList).dropLast (Path.segmentsOf target.toList),
        IsName segment := by
  have stays (folder segments : List (List Char)) :
      normalizeSegments (folder ++ stay :: segments) = normalizeSegments (folder ++ segments) := by
    rw [normalizeSegments, normalizeSegments, List.foldl_append, List.foldl_append, List.foldl_cons,
      followSegment_stay]
  rw [← normalizeSegments_relativeSegments_iff, resolveImport]
  rcases segmentsOf_relativeImport moduleFile target with written | written
  · rw [written]
  · rw [written, stays]

end ModelGrid.AngularModule
