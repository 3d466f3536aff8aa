import ModelGrid.Proofs.AngularModule.ImportPath
import ModelGrid.Proofs.AngularModule.Resolution

/-!
# Relative and shortest imports

An import is written from the folder of the module file: with a dot in front where the folder is on the
way to the target, and otherwise with as many steps out as the folder has segments that are not.  No
other path that leads to the target takes fewer steps.

Whether the import begins with a step out is read off its letters.  So a name that begins with two dots
and comes first is taken for one, and no dot is put in front of it (`SeemsToClimb`): what is written then
is the path of a package (`relativeImport_of_dotted`).

That no other path is shorter is shown by what is left to go: a step takes away one segment of it at most
(`length_relativeSegments_followSegment`).

## Main definitions

* `IsRelative`: the path is one from a folder, and not that of a package.
* `PartAt`: what two paths have in common, and where each goes on.
* `SeemsToClimb`: the next segment is a name that begins with two dots.
* `stepCount`: the number of steps of a path.

## Main results

* `relativeImport_isRelative_iff`: when an import is relative, and that it is shortest.
-/

namespace ModelGrid.AngularModule

open Store

/-! ### Relative paths -/

/-- The path begins with a segment of dots. -/
def IsRelative (path : List Char) : Prop :=
  path = stay ∨ path = up ∨ stay ++ ['/'] <+: path ∨ up ++ ['/'] <+: path

instance : DecidablePred IsRelative := fun path =>
  inferInstanceAs
    (Decidable (path = stay ∨ path = up ∨ stay ++ ['/'] <+: path ∨ up ++ ['/'] <+: path))

/-- What is joined begins with its first segment, and goes on with a slash if it goes on. -/
theorem exists_joinSegments_cons (first : List Char) (rest : List (List Char)) :
    ∃ back, joinSegments (first :: rest) = first ++ back ∧ (back = [] ∨ ['/'] <+: back) := by
  by_cases last : rest = []
  · subst last
    exact ⟨[], by rw [joinSegments, List.intercalate_singleton, List.append_nil], .inl rfl⟩
  · refine ⟨'/' :: joinSegments rest, ?_, .inr ⟨_, rfl⟩⟩
    rw [joinSegments, List.intercalate_cons_of_ne_nil last, List.append_assoc]
    rfl

/-- A path that begins with a step out is relative. -/
theorem isRelative_joinSegments_up (rest : List (List Char)) :
    IsRelative (joinSegments (up :: rest)) ∧ up <+: joinSegments (up :: rest) ∧
      ¬ stay ++ ['/'] <+: joinSegments (up :: rest) := by
  obtain ⟨back, joined, goes_on⟩ := exists_joinSegments_cons up rest
  rw [joined]
  refine ⟨?_, List.prefix_append _ _, ?_⟩
  · rcases goes_on with rfl | ⟨more, rfl⟩
    · exact .inr (.inl (List.append_nil up))
    · exact .inr (.inr (.inr ⟨more, by simp⟩))
  · rintro ⟨more, same⟩
    simp [stay, up] at same

/-- Letters without a slash that joined segments begin with are in the first one. -/
theorem exists_of_isPrefix_joinSegments {part : List Char} {segments : List (List Char)}
    (ne : part ≠ []) (no_slash : '/' ∉ part) (begins : part <+: joinSegments segments) :
    ∃ first rest, segments = first :: rest ∧ part <+: first := by
  cases segments with
  | nil => exact absurd (List.prefix_nil.mp begins) ne
  | cons first rest =>
    obtain ⟨back, joined, goes_on⟩ := exists_joinSegments_cons first rest
    refine ⟨first, rest, rfl, ?_⟩
    rw [joined] at begins
    rcases goes_on with rfl | ⟨more, rfl⟩
    · rwa [List.append_nil] at begins
    · by_cases short : part.length ≤ first.length
      · exact List.prefix_of_prefix_length_le begins (List.prefix_append _ _) short
      · -- a longer part goes over the slash
        have goes_over : first ++ ['/'] <+: part :=
          List.prefix_of_prefix_length_le ⟨more, by simp⟩ begins (by simp; omega)
        exact absurd (goes_over.subset (by simp)) no_slash

/-- A name that begins with two dots, in front, is no step out. -/
theorem not_isRelative_joinSegments {name : List Char} (is_name : IsName name) (no_slash : '/' ∉ name)
    (dots : up <+: name) (rest : List (List Char)) : ¬ IsRelative (joinSegments (name :: rest)) := by
  obtain ⟨back, joined, -⟩ := exists_joinSegments_cons name rest
  obtain ⟨tail, rfl⟩ := dots
  rw [joined]
  cases tail with
  | nil => exact absurd (List.append_nil up) is_name.2
  | cons c cs =>
    have not_slash : c ≠ '/' := by
      rintro rfl
      simp at no_slash
    rintro (here | out | ⟨more, here⟩ | ⟨more, out⟩)
    · simp [stay, up] at here
    · simp [up] at out
    · simp [stay, up] at here
    · simp only [up, List.cons_append, List.nil_append, List.cons.injEq, true_and] at out
      exact not_slash out.1.symm

/-! ### Where two paths part -/

/-- The two paths have `shared` in common and nothing beyond it; the folder goes on with `out` and the
target with `down`. -/
structure PartAt (folder target shared out down : List (List Char)) : Prop where
  folder_eq : folder = shared ++ out
  target_eq : target = shared ++ down
  longest : ∀ front, front <+: folder → front <+: target → front.length ≤ shared.length

theorem length_le_commonLength {front folder target : List (List Char)} (to_folder : front <+: folder)
    (to_target : front <+: target) : front.length ≤ commonLength folder target := by
  induction front generalizing folder target with
  | nil => exact Nat.zero_le _
  | cons a front ih =>
    obtain ⟨folder', rfl⟩ := to_folder
    obtain ⟨target', rfl⟩ := to_target
    simpa [commonLength] using ih (List.prefix_append front folder') (List.prefix_append front target')

theorem partAt_commonLength (folder target : List (List Char)) :
    PartAt folder target (target.take (commonLength folder target)) (offWay folder target)
      (target.drop (commonLength folder target)) where
  folder_eq := by rw [← take_commonLength, offWay, List.take_append_drop]
  target_eq := (List.take_append_drop _ _).symm
  longest front to_folder to_target := by
    rw [List.length_take_of_le (commonLength_le folder target).2]
    exact length_le_commonLength to_folder to_target

theorem relativeSegments_eq (folder target : List (List Char)) :
    relativeSegments folder target = List.replicate (offWay folder target).length up ++
      target.drop (commonLength folder target) := by
  rw [relativeSegments, offWay, List.length_drop]

/-- A target is the folder and what it goes on with, where all of the folder is on the way. -/
theorem append_drop_commonLength {folder target : List (List Char)}
    (on_way : offWay folder target = []) :
    folder ++ target.drop (commonLength folder target) = target := by
  have parts := partAt_commonLength folder target
  have shared := parts.folder_eq
  rw [on_way, List.append_nil] at shared
  exact (congrArg (· ++ _) shared).trans parts.target_eq.symm

/-- All of a folder is on the way to what is below it. -/
theorem offWay_eq_nil_iff {folder target : List (List Char)} :
    offWay folder target = [] ↔ folder <+: target :=
  ⟨fun on_way => ⟨_, append_drop_commonLength on_way⟩,
    fun below => List.drop_of_length_le (length_le_commonLength List.prefix_rfl below)⟩

/-- The folder is on the way to the target, and the next segment is one that begins with two dots. -/
def SeemsToClimb (folder target : List (List Char)) : Prop :=
  ∃ name later, target = folder ++ name :: later ∧ up <+: name

/-! ### The letters of an import -/

variable {folder target : List (List Char)}

/-- Out of a folder that is not on the way, an import begins with a step out. -/
theorem exists_relativeSegments_up (off : offWay folder target ≠ []) :
    ∃ rest, relativeSegments folder target = up :: rest := by
  obtain ⟨segment, segments, eq⟩ := List.exists_cons_of_ne_nil off
  rw [relativeSegments_eq, eq, List.length_cons, List.replicate_succ]
  exact ⟨_, rfl⟩

/-- Below the folder, an import is read as one that climbs where it only seems to. -/
theorem isPrefix_joinSegments_iff (below : folder <+: target) :
    up <+: joinSegments (relativeSegments folder target) ↔ SeemsToClimb folder target := by
  obtain ⟨down, rfl⟩ := below
  have written : relativeSegments folder (folder ++ down) = down := by
    have all : commonLength folder (folder ++ down) = folder.length :=
      Nat.le_antisymm (commonLength_le _ _).1
        (length_le_commonLength List.prefix_rfl (List.prefix_append _ _))
    simp [relativeSegments, all]
  rw [written]
  constructor
  · intro begins
    obtain ⟨name, later, rfl, dots⟩ :=
      exists_of_isPrefix_joinSegments (by decide) (by decide) begins
    exact ⟨name, later, rfl, dots⟩
  · rintro ⟨name, later, eq, dots⟩
    obtain ⟨back, joined, -⟩ := exists_joinSegments_cons name later
    rw [List.append_cancel_left eq, joined]
    exact dots.trans (List.prefix_append _ _)

theorem toList_relativeImport (moduleFile target : String) :
    let segments := relativeSegments (Path.segmentsOf moduleFile.toList).dropLast
      (Path.segmentsOf target.toList)
    (relativeImport moduleFile target).toList =
      if up <+: joinSegments segments then joinSegments segments
      else stay ++ '/' :: joinSegments segments := by
  intro segments
  rw [relativeImport, String.toList_ofList]
  simp only [Text.startsWith_iff, segments]

/-! ### Steps that are left -/

/-- One more segment changes what is in common by one at most. -/
theorem commonLength_concat (folder target : List (List Char)) (segment : List Char) :
    commonLength folder target ≤ commonLength (folder ++ [segment]) target ∧
      commonLength (folder ++ [segment]) target ≤ commonLength folder target + 1 := by
  induction folder generalizing target with
  | nil =>
    refine ⟨Nat.zero_le _, ?_⟩
    cases target with
    | nil => exact Nat.zero_le _
    | cons b bs =>
      rw [List.nil_append, commonLength]
      split <;> simp [commonLength]
  | cons a as ih =>
    cases target with
    | nil => exact ⟨Nat.zero_le _, Nat.zero_le _⟩
    | cons b bs =>
      rw [List.cons_append, commonLength, commonLength]
      split
      · exact ⟨Nat.succ_le_succ (ih bs).1, Nat.succ_le_succ (ih bs).2⟩
      · exact ⟨Nat.le_refl 0, Nat.zero_le _⟩

theorem length_relativeSegments (folder target : List (List Char)) :
    (relativeSegments folder target).length =
      (folder.length - commonLength folder target) +
        (target.length - commonLength folder target) := by
  rw [relativeSegments, List.length_append, List.length_replicate, List.length_drop]

/-- Everything a segment can do: nothing if it is a dot, and otherwise go into something or out of it. -/
theorem followSegment_cases (behind : List (List Char)) (segment : List Char) :
    segment = stay ∧ followSegment behind segment = behind ∨
    segment ≠ stay ∧ (followSegment behind segment = segment :: behind ∨
      ∃ last, behind = last :: followSegment behind segment) := by
  by_cases here : segment = stay
  · exact .inl ⟨here, here ▸ followSegment_stay behind⟩
  refine .inr ⟨here, ?_⟩
  by_cases out : segment = up
  · subst out
    cases behind with
    | nil => exact .inl rfl
    | cons last rest =>
      rw [followSegment_up_cons]
      by_cases outside : last = up
      · exact .inl (by simp [outside])
      · exact .inr ⟨last, by simp [outside]⟩
  · exact .inl (followSegment_of_isName ⟨here, out⟩ behind)

/-- **A step takes away one segment at most** of what is left to go. -/
theorem length_relativeSegments_followSegment (behind : List (List Char)) (segment : List Char)
    (target : List (List Char)) :
    (relativeSegments behind.reverse target).length ≤
      (relativeSegments (followSegment behind segment).reverse target).length +
        if segment = stay then 0 else 1 := by
  rcases followSegment_cases behind segment with ⟨here, same⟩ | ⟨moves, into | ⟨last, out⟩⟩
  · rw [if_pos here, same]
    exact Nat.le_refl _
  · rw [if_neg moves, into, List.reverse_cons, length_relativeSegments, length_relativeSegments,
      List.length_append, List.length_singleton]
    have change := commonLength_concat behind.reverse target segment
    have bound := commonLength_le (behind.reverse ++ [segment]) target
    rw [List.length_append, List.length_singleton] at bound
    omega
  · rw [if_neg moves]
    generalize followSegment behind segment = rest at out ⊢
    subst out
    have change := commonLength_concat rest.reverse target last
    have bound := commonLength_le rest.reverse target
    rw [List.reverse_cons, length_relativeSegments, length_relativeSegments, List.length_append,
      List.length_singleton]
    omega

/-- **No way to a target is shorter** than what is left to go. -/
theorem length_relativeSegments_foldl (segments behind target : List (List Char)) :
    (relativeSegments behind.reverse target).length ≤
      (relativeSegments (segments.foldl followSegment behind).reverse target).length +
        (segments.filter (· != stay)).length := by
  induction segments generalizing behind with
  | nil => exact Nat.le_refl _
  | cons segment rest ih =>
    have step := length_relativeSegments_followSegment behind segment target
    have later := ih (followSegment behind segment)
    rw [List.foldl_cons, List.filter_cons]
    by_cases here : segment = stay
    · simp only [here, bne_self_eq_false, Bool.false_eq_true, if_false, if_true] at step later ⊢
      omega
    · simp only [here, bne_iff_ne, ne_eq, not_false_eq_true, if_true, if_false,
        List.length_cons] at step later ⊢
      omega

/-- The number of steps of a path, into folders and out of them. -/
def stepCount (path : List Char) : Nat :=
  ((Path.segmentsOf path).filter (· != stay)).length

theorem foldl_followSegment_of_names {names : List (List Char)} (all : ∀ name ∈ names, IsName name)
    (behind : List (List Char)) : names.foldl followSegment behind = names.reverse ++ behind := by
  induction names generalizing behind with
  | nil => rfl
  | cons name names ih =>
    rw [List.foldl_cons, followSegment_of_isName (all name (by simp)),
      ih fun n mem => all n (List.mem_cons_of_mem name mem)]
    simp

/-- An import takes one step for each of its segments, apart from a dot in front. -/
theorem stepCount_relativeImport {moduleFile target : String}
    (names : ∀ segment ∈ Path.segmentsOf target.toList, IsName segment) :
    stepCount (relativeImport moduleFile target).toList =
      (relativeSegments (Path.segmentsOf moduleFile.toList).dropLast
        (Path.segmentsOf target.toList)).length := by
  have moving : ∀ segment ∈ relativeSegments (Path.segmentsOf moduleFile.toList).dropLast
      (Path.segmentsOf target.toList), (segment != stay) = true := by
    intro segment mem
    rcases mem_relativeSegments mem with rfl | mem
    · decide
    · simpa using (names segment mem).1
  rw [stepCount]
  rcases segmentsOf_relativeImport moduleFile target with written | written
  · rw [written, List.filter_eq_self.mpr moving]
  · rw [written, List.filter_cons_of_neg (by simp), List.filter_eq_self.mpr moving]

/-- **An import is as short as any path** from the module file to its target, where both are written in
names only. -/
theorem stepCount_relativeImport_le {moduleFile target other : String}
    (from_names : ∀ segment ∈ Path.segmentsOf moduleFile.toList, IsName segment)
    (names : ∀ segment ∈ Path.segmentsOf target.toList, IsName segment)
    (leads : resolveImport moduleFile other = Path.segmentsOf target.toList) :
    stepCount (relativeImport moduleFile target).toList ≤ stepCount other.toList := by
  set folder := (Path.segmentsOf moduleFile.toList).dropLast
  have start : folder.foldl followSegment [] = folder.reverse := by
    rw [foldl_followSegment_of_names fun name mem => from_names name (List.mem_of_mem_dropLast mem),
      List.append_nil]
  have arrived : ((Path.segmentsOf other.toList).foldl followSegment folder.reverse).reverse =
      Path.segmentsOf target.toList := by
    rw [← start, ← List.foldl_append]
    exact leads
  have nothing_left (path : List (List Char)) : (relativeSegments path path).length = 0 := by
    have all := length_le_commonLength (List.prefix_rfl (l := path)) List.prefix_rfl
    rw [length_relativeSegments]
    omega
  have way := length_relativeSegments_foldl (Path.segmentsOf other.toList) folder.reverse
    (Path.segmentsOf target.toList)
  rw [arrived, nothing_left, List.reverse_reverse, Nat.zero_add] at way
  rwa [stepCount_relativeImport names]

/-! ### Imports -/

/-- **Imports are relative and shortest**, for targets that are written in names: an import is no path
of a package unless its first name begins with two dots, below the module's folder.  Apart from this
case, it begins with a dot if and only if the folder is on the way to the target, and otherwise has one
step out for each segment of the folder that is not, in front of the rest of the target.  From a module
file that is written in names too, no path to the target has fewer steps. -/
theorem relativeImport_isRelative_iff {moduleFile target : String}
    (names : ∀ segment ∈ Path.segmentsOf target.toList, IsName segment) :
    let folder := (Path.segmentsOf moduleFile.toList).dropLast
    let segments := Path.segmentsOf target.toList
    let path := (relativeImport moduleFile target).toList
    (IsRelative path ↔ ¬ SeemsToClimb folder segments) ∧
    (¬ SeemsToClimb folder segments →
      (stay ++ ['/'] <+: path ↔ folder <+: segments) ∧
      ∃ shared out down, PartAt folder segments shared out down ∧
        (out = [] → path = stay ++ '/' :: joinSegments down) ∧
        (out ≠ [] → path = joinSegments (List.replicate out.length up ++ down))) ∧
    ((∀ segment ∈ Path.segmentsOf moduleFile.toList, IsName segment) →
      ∀ other : String, resolveImport moduleFile other = segments →
        stepCount path ≤ stepCount other.toList) := by
  intro folder segments path
  have written : path = _ := toList_relativeImport moduleFile target
  have parts := partAt_commonLength folder segments
  have shortest : (∀ segment ∈ Path.segmentsOf moduleFile.toList, IsName segment) →
      ∀ other : String, resolveImport moduleFile other = segments →
        stepCount path ≤ stepCount other.toList :=
    fun from_names _ leads => stepCount_relativeImport_le from_names names leads
  -- elsewhere, the import begins with a step out, and so with a dot
  by_cases below : folder <+: segments
  case neg =>
    have off : offWay folder segments ≠ [] := fun on_way => below (offWay_eq_nil_iff.mp on_way)
    have no_climb : ¬ SeemsToClimb folder segments :=
      fun ⟨name, later, eq, _⟩ => below ⟨name :: later, eq.symm⟩
    obtain ⟨rest, climbs⟩ := exists_relativeSegments_up off
    obtain ⟨relative, begins, no_dot⟩ := isRelative_joinSegments_up rest
    rw [climbs, if_pos begins] at written
    refine ⟨iff_of_true (written ▸ relative) no_climb, fun _ => ⟨?_, _, _, _, parts, ?_, ?_⟩, shortest⟩
    · exact iff_of_false (written ▸ no_dot) below
    · exact fun on_way => absurd on_way off
    · exact fun _ => by rw [written, ← climbs, relativeSegments_eq]
  -- below the folder, there is a dot unless the first name looks like a step out
  have on_way : offWay folder segments = [] := offWay_eq_nil_iff.mpr below
  have down : relativeSegments folder segments =
      segments.drop (commonLength folder segments) := by
    rw [relativeSegments_eq, on_way]
    rfl
  by_cases seems : SeemsToClimb folder segments
  case pos =>
    rw [if_pos ((isPrefix_joinSegments_iff below).mpr seems)] at written
    have bare : ¬ IsRelative path := by
      obtain ⟨name, later, eq, dots⟩ := seems
      have behind : relativeSegments folder segments = name :: later :=
        List.append_cancel_left ((congrArg _ down).trans ((append_drop_commonLength on_way).trans eq))
      have mem : name ∈ segments := eq ▸ by simp
      rw [written, behind]
      exact not_isRelative_joinSegments (names name mem) (mem_segmentsOf mem).2 dots later
    exact ⟨iff_of_false bare (not_not.mpr seems), fun no_climb => absurd seems no_climb, shortest⟩
  case neg =>
    rw [if_neg (mt (isPrefix_joinSegments_iff below).mp seems)] at written
    have dot : stay ++ ['/'] <+: path := written ▸ ⟨_, by simp; rfl⟩
    refine ⟨iff_of_true (.inr (.inr (.inl dot))) seems, fun _ => ⟨?_, _, _, _, parts, ?_, ?_⟩, shortest⟩
    · exact iff_of_true dot below
    · exact fun _ => by rw [written, down]
    · exact fun off => absurd on_way off

/-- A folder beside the module's, with a name that begins with two dots behind a step out. -/
theorem relativeImport_isRelative_iff_beside :
    let moduleFile := "src/app/core/core.module.ts"
    let target := "src/app/..lists/user.component"
    let path := (relativeImport moduleFile target).toList
    path = "../..lists/user.component".toList ∧ IsRelative path ∧ ¬ stay ++ ['/'] <+: path ∧
      ∀ other : String, resolveImport moduleFile other = Path.segmentsOf target.toList →
        3 ≤ stepCount other.toList := by
  intro moduleFile target path
  have from_names : ∀ segment ∈ Path.segmentsOf moduleFile.toList, IsName segment := by
    unfold IsName
    decide +kernel
  have names : ∀ segment ∈ Path.segmentsOf target.toList, IsName segment := by
    unfold IsName
    decide +kernel
  have beside : ¬ (Path.segmentsOf moduleFile.toList).dropLast <+: Path.segmentsOf target.toList := by
    decide +kernel
  have no_climb : ¬ SeemsToClimb (Path.segmentsOf moduleFile.toList).dropLast
      (Path.segmentsOf target.toList) :=
    fun ⟨name, later, eq, _⟩ => beside ⟨name :: later, eq.symm⟩
  have steps : stepCount path = 3 := by decide +kernel
  obtain ⟨relative, shape, shortest⟩ := @relativeImport_isRelative_iff moduleFile target names
  exact ⟨by decide +kernel, relative.mpr no_climb, fun dot => beside ((shape no_climb).1.mp dot),
    fun other leads => steps ▸ shortest from_names other leads⟩

/-- **A name taken for a step out**: below the folder of the module file, the import of a folder whose
name begins with two dots is the path of a package. -/
theorem relativeImport_of_dotted :
    let moduleFile := "app.module.ts"
    let target := "..lists/user.component"
    (∀ segment ∈ Path.segmentsOf target.toList, IsName segment) ∧
      (Path.segmentsOf moduleFile.toList).dropLast <+: Path.segmentsOf target.toList ∧
      relativeImport moduleFile target = "..lists/user.component" ∧
      ¬ stay ++ ['/'] <+: (relativeImport moduleFile target).toList ∧
      ¬ IsRelative (relativeImport moduleFile target).toList := by
  unfold IsName
  decide +kernel

end ModelGrid.AngularModule
