import ModelGrid.Proofs.Store.Frame

/-!
# Files that cannot be written

Writing a file makes the folders that lead to it, as far as they are not there.  It may fail after
some of them are made, and a path that led nowhere may lead further now, where it has segments such as
`new/..`.  Even so it does not lead to a file in the end: a folder that could not be made is not there
(`Disk.not_isFolder_of_createFolders`), and a path leads through the folder that it is in.

What carries the recursion over the folders is that a folder is in a folder
(`Disk.isFolder_parent`).  This is by the components of its path, where the segments are gone that
stay in a folder; the path still leads somewhere without them (`Disk.exists_follow_filter`).

## Main results

* `Disk.not_isFolder_of_createFolders`: a folder that could not be made is not there.
* `Workspace.not_leads_of_overwrite`: a path at which no file could be written leads to none.
-/

namespace ModelGrid.Store

namespace Path

theorem length_components_le (p : Path) : p.components.length ≤ p.segments.length := by
  rw [components]
  split
  next none_there => simp
  next first rest segments =>
    have fewer := List.length_filter_le (· != ".") rest
    dsimp only
    rw [segments, List.length_cons]
    split
    · omega
    · rw [List.length_cons]
      omega

/-- The path of a folder has one component less than those of what is in it. -/
theorem parent?_eq_some {p parent : Path} (found : p.parent? = some parent) :
    ∃ last, p.components = parent.segments ++ [last] ∧ parent.absolute = p.absolute := by
  rw [parent?] at found
  split at found
  next => cases found
  next some_there =>
    cases found
    have ne : p.components ≠ [] := by simpa using some_there
    exact ⟨_, (List.dropLast_concat_getLast ne).symm, rfl⟩

end Path

namespace Disk

variable {d after : Disk} {l : Location} {p parent : Path} {target : Target}
  {segment : String} {segments rest rest' : List String}

/-! ### Folders are in folders -/

/-- A path leads somewhere if what follows its first segment is changed for what leads somewhere. -/
theorem exists_follow_cons
    (on : ∀ l target, d.follow l rest = .ok target → ∃ target', d.follow l rest' = .ok target')
    (leads : d.follow l (segment :: rest) = .ok target) :
    ∃ target', d.follow l (segment :: rest') = .ok target' := by
  obtain ⟨there, ⟨here, later⟩ | ⟨up, later⟩ | ⟨name, later⟩⟩ := follow_cons_eq_ok.mp leads
  · obtain ⟨target', later'⟩ := on _ _ later
    exact ⟨target', follow_cons_eq_ok.mpr ⟨there, .inl ⟨here, later'⟩⟩⟩
  · obtain ⟨target', later'⟩ := on _ _ later
    exact ⟨target', follow_cons_eq_ok.mpr ⟨there, .inr (.inl ⟨up, later'⟩)⟩⟩
  · by_cases at_end : rest' = []
    · exact ⟨_, follow_cons_eq_ok.mpr ⟨there, .inr (.inr ⟨name, .inl ⟨at_end, rfl⟩⟩)⟩⟩
    · obtain ⟨target', later'⟩ : ∃ target', d.follow (l ++ [segment]) rest' = .ok target' := by
        obtain ⟨rfl, _⟩ | ⟨_, later⟩ := later
        · exact on _ _ rfl
        · exact on _ _ later
      exact ⟨target', follow_cons_eq_ok.mpr ⟨there, .inr (.inr ⟨name, .inr ⟨at_end, later'⟩⟩)⟩⟩

/-- A path leads somewhere without the segments that stay. -/
theorem exists_follow_filter (leads : d.follow l segments = .ok target) :
    ∃ target', d.follow l (segments.filter (· != ".")) = .ok target' := by
  induction segments generalizing l target with
  | nil => exact ⟨target, leads⟩
  | cons segment rest ih =>
    by_cases stays : segment = "."
    · obtain ⟨_, ⟨_, later⟩ | ⟨up, _⟩ | ⟨name, _⟩⟩ := follow_cons_eq_ok.mp leads
      · simpa [stays] using ih later
      · exact absurd (stays.symm.trans up) (by decide)
      · exact absurd stays name.1
    · rw [List.filter_cons_of_pos (by simpa using stays)]
      exact exists_follow_cons (fun _ _ later => ih later) leads

/-- A path leads somewhere by its components. -/
theorem exists_follow_components (leads : d.follow l p.segments = .ok target) :
    ∃ target', d.follow l p.components = .ok target' := by
  obtain ⟨absolute, segments, trailing⟩ := p
  cases segments with
  | nil => exact ⟨target, leads⟩
  | cons first rest =>
    rw [Path.components]
    dsimp only
    split
    next dropped =>
      have stays : first = "." := by
        simp only [Bool.and_eq_true, beq_iff_eq] at dropped
        exact dropped.1
      have filtered := exists_follow_filter leads
      simpa [stays] using filtered
    next => exact exists_follow_cons (fun _ _ later => exists_follow_filter later) leads

/-- **A folder is in a folder.** -/
theorem isFolder_parent (found : p.parent? = some parent) (there : d.isFolder p = true) :
    parent.isEmpty = true ∨ d.isFolder parent = true := by
  refine or_iff_not_imp_left.mpr fun something => ?_
  obtain ⟨target, leads⟩ : ∃ target, d.resolve p = .ok target := by
    obtain ⟨l, leads | ⟨leads, _⟩⟩ := isFolder_iff.mp there
    · exact ⟨_, leads⟩
    · exact ⟨_, leads⟩
  obtain ⟨no_zero, _, on⟩ := resolve_eq_ok.mp leads
  obtain ⟨last, components, absolute⟩ := Path.parent?_eq_some found
  obtain ⟨target', on'⟩ := exists_follow_components on
  rw [components, ← absolute] at on'
  obtain ⟨l, folder, through⟩ := exists_leadsToFolder_of_follow_append (by simp) on'
  have resolves {target : Target}
      (leads : d.follow (if parent.absolute then [] else d.here) parent.segments = .ok target) :
      d.resolve parent = .ok target := by
    refine resolve_eq_ok.mpr ⟨fun segment mem => no_zero segment ?_, Bool.eq_false_iff.mpr something, leads⟩
    exact Path.mem_of_mem_components (components ▸ List.mem_append_left _ mem)
  exact isFolder_iff.mpr ⟨l, through.imp resolves fun leads => ⟨resolves leads, folder⟩⟩

/-! ### Folders that cannot be made -/

/-- **A folder that could not be made** is not there. -/
theorem not_isFolder_of_createFolders {fault : DiskFault}
    (run : d.createFolders p = (.error fault, after)) :
    p.isEmpty = false ∧ after.isFolder p = false := by
  have enough : p.segments.length < p.segments.length + 1 := Nat.lt_succ_self _
  rw [createFolders] at run
  generalize p.segments.length + 1 = fuel at run enough
  induction fuel generalizing p fault after with
  | zero => omega
  | succ fuel ih =>
    rw [createFoldersUpTo] at run
    split at run
    next => cases run
    next something =>
      refine ⟨Bool.eq_false_iff.mpr something, ?_⟩
      split at run
      next => cases run
      next no_entry =>
        split at run
        next =>
          cases run
          refine Bool.eq_false_iff.mpr fun there => ?_
          rw [createFolder_of_isFolder there] at no_entry
          cases no_entry
        next parent found =>
          split at run
          next above =>
            cases run
            -- the folder above is not there, and so neither is this one
            obtain ⟨something', not_there⟩ := ih above (by
              obtain ⟨last, components, _⟩ := Path.parent?_eq_some found
              have le := p.length_components_le
              rw [components, List.length_append, List.length_singleton] at le
              omega)
            refine Bool.eq_false_iff.mpr fun there => ?_
            rcases isFolder_parent found there with nothing | there'
            · rw [something'] at nothing
              cases nothing
            · rw [not_there] at there'
              cases there'
          next =>
            split at run
            next => cases run
            next =>
              split at run
              next => cases run
              next not_there =>
                cases run
                exact Bool.eq_false_iff.mpr not_there
      next =>
        split at run
        next => cases run
        next not_there =>
          cases run
          exact Bool.eq_false_iff.mpr not_there

end Disk

namespace Workspace

open Disk Store.Action

variable {w : Workspace} {d after : Disk} {path text : String} {fault : Fault}

/-- **A file that could not be written**: folders are made at most, and the path leads to no place for
a file. -/
theorem not_leads_of_overwrite (run : (w.overwrite path text).on d = (.error fault, after)) :
    ChangesWithin ∅ d after ∧ ∀ l, ¬ after.Leads (w.pathOf path) l := by
  obtain ⟨rfl, _⟩ := (ends_iff.mp (ends_overwrite_made w path text d)).2 fault after run
  refine ⟨changesWithin_madeFor w path d, fun l leads => ?_⟩
  have written (way : w.MakesWay path d (w.madeFor path d)) : False := by
    have done : (w.overwrite path text).on d = (.ok (), _) :=
      overwrite_eq_ok_iff.mpr ⟨_, l, way, leads, rfl⟩
    rw [run] at done
    cases done
  cases found : (w.pathOf path).parent? with
  | none =>
    refine written ((makesWay_of_no_parent found).mpr ?_)
    rw [madeFor, found]
  | some parent =>
    have made : w.madeFor path d = (d.createFolders parent).2 := by rw [madeFor, found]
    cases result : (d.createFolders parent).1 with
    | ok _ =>
      refine written ((makesWay_of_parent found).mpr ?_)
      rw [made]
      exact eq_mk_of_fst_eq result
    | error why =>
      obtain ⟨something, not_there⟩ := not_isFolder_of_createFolders (eq_mk_of_fst_eq result)
      rw [← made] at not_there
      rcases hasParent_of_leads leads parent found with nothing | there
      · rw [something] at nothing
        cases nothing
      · rw [not_there] at there
        cases there

end Workspace

end ModelGrid.Store
