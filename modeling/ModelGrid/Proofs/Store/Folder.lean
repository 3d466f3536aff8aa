import ModelGrid.Proofs.Store.Path

/-!
# Folders that lead to files

A file is written after the folders that lead to it are made.  Where they are there already nothing
is made; this is so for a file in a folder out of which another path leads on.

## Main definitions

* `Disk.LeadsToFolder`: segments lead from a location to a folder.
* `Workspace.HasParent`: the folder that a path of the workspace is in is there.
* `Workspace.MakesWay`: the folders that lead to a file can be made.

## Main results

* `Disk.createFoldersUpTo_succ_eq_ok`: when folders can be made.
* `Disk.createFolders_of_isFolder`, `Disk.isFolder_of_createFolders`: making folders that are there,
  and folders that were made.
* `Disk.exists_leadsToFolder_of_follow_append`: on its way a path leads through folders.
* `Workspace.hasParent_of_follow`: the folder is there if a path leads on from it.
-/

namespace ModelGrid.Store

namespace Disk

variable {S : Set Location} {d d' made : Disk} {l l' : Location} {p : Path} {target : Target}

/-! ### Making folders -/

theorem isFolder_iff : d.isFolder p = true ↔
    ∃ l, d.resolve p = .ok (.folder l) ∨ d.resolve p = .ok (.named l) ∧ d.entry? l = some .folder := by
  rw [isFolder, find]
  cases leads : d.resolve p with
  | error fault => simp
  | ok target =>
    cases target with
    | folder l => simp
    | named l =>
      cases there : d.entry? l with
      | none => simp [there]
      | some entry =>
        cases entry with
        | folder => simp [there]
        | file content =>
          by_cases trailing : p.trailing = true
          · simp [there, trailing]
          · simp [there, trailing]

theorem ChangesWithin.isFolder (h : ChangesWithin S d d') (there : d.isFolder p = true) :
    d'.isFolder p = true := by
  obtain ⟨l, leads | ⟨leads, folder⟩⟩ := isFolder_iff.mp there
  · exact isFolder_iff.mpr ⟨l, .inl (h.resolve_eq leads)⟩
  · exact isFolder_iff.mpr ⟨l, .inr ⟨h.resolve_eq leads, h.folder l folder⟩⟩

/-- Where a folder is, none is made. -/
theorem createFolder_of_isFolder (there : d.isFolder p = true) :
    d.createFolder p = .error .alreadyThere := by
  obtain ⟨l, leads | ⟨leads, folder⟩⟩ := isFolder_iff.mp there
  · simp [createFolder, leads]
  · simp [createFolder, leads, folder]

theorem isFolder_of_createFolder (made : d.createFolder p = .ok d') : d'.isFolder p = true := by
  have changes := changesWithin_createFolder made
  obtain ⟨l, leads, free, rfl⟩ := createFolder_eq_ok.mp made
  have named : l ≠ [] := ne_nil_of_entry?_ne (d := d) (by simp [free])
  exact isFolder_iff.mpr ⟨l, .inr ⟨changes.resolve_eq leads, entry?_put named⟩⟩

/-- **Folders are made** one by one from the first one that is missing, unless they are there. -/
theorem createFoldersUpTo_succ_eq_ok {fuel : Nat} :
    createFoldersUpTo (fuel + 1) p d = (.ok (), made) ↔
      p.isEmpty = true ∧ made = d ∨ p.isEmpty = false ∧
        (d.createFolder p = .ok made ∨ d.isFolder p = true ∧ made = d ∨
          d.createFolder p = .error .noEntry ∧ ∃ parent mid, p.parent? = some parent ∧
            createFoldersUpTo fuel parent d = (.ok (), mid) ∧
              (mid.createFolder p = .ok made ∨ mid.isFolder p = true ∧ made = mid)) := by
  rw [createFoldersUpTo]
  constructor
  · intro run
    split at run
    next nothing =>
      cases run
      exact .inl ⟨nothing, rfl⟩
    next something =>
      refine .inr ⟨Bool.eq_false_iff.mpr something, ?_⟩
      split at run
      next created =>
        cases run
        exact .inl created
      next missing =>
        split at run
        next => cases run
        next parent found =>
          split at run
          next => cases run
          next mid above =>
            -- a folder that something made in between counts as made
            refine .inr (.inr ⟨missing, parent, mid, found, above, ?_⟩)
            split at run
            next created =>
              cases run
              exact .inl created
            next =>
              split at run
              next there =>
                cases run
                exact .inr ⟨there, rfl⟩
              next => cases run
      next =>
        split at run
        next there =>
          cases run
          exact .inr (.inl ⟨there, rfl⟩)
        next => cases run
  · rintro (⟨nothing, rfl⟩ | ⟨something, created | ⟨there, rfl⟩ |
      ⟨missing, parent, mid, found, above, last⟩⟩)
    · rw [if_pos nothing]
    · simp [something, created]
    · simp [something, createFolder_of_isFolder there, there]
    · rcases last with created | ⟨there, rfl⟩
      · simp [something, missing, found, above, created]
      · simp [something, missing, found, above, createFolder_of_isFolder there, there]

/-- **Folders that are there** are not made. -/
theorem createFolders_of_isFolder (there : p.isEmpty = true ∨ d.isFolder p = true) :
    d.createFolders p = (.ok (), d) := by
  refine createFoldersUpTo_succ_eq_ok.mpr ?_
  by_cases nothing : p.isEmpty = true
  · exact .inl ⟨nothing, rfl⟩
  · exact .inr ⟨Bool.eq_false_iff.mpr nothing, .inr (.inl ⟨there.resolve_left nothing, rfl⟩)⟩

/-- **Folders that were made** are there. -/
theorem isFolder_of_createFolders (made_ok : d.createFolders p = (.ok (), made)) :
    p.isEmpty = true ∨ made.isFolder p = true := by
  obtain ⟨nothing, _⟩ | ⟨_, created | ⟨there, rfl⟩ | ⟨_, _, _, _, _, created | ⟨there, rfl⟩⟩⟩ :=
    createFoldersUpTo_succ_eq_ok.mp made_ok
  · exact .inl nothing
  · exact .inr (isFolder_of_createFolder created)
  · exact .inr there
  · exact .inr (isFolder_of_createFolder created)
  · exact .inr there

/-! ### The way to a file -/

/-- The segments lead from one location to another, where a folder is. -/
def LeadsToFolder (d : Disk) (l : Location) (segments : List String) (l' : Location) : Prop :=
  d.entry? l' = some .folder ∧
    (d.follow l segments = .ok (.folder l') ∨ d.follow l segments = .ok (.named l'))

theorem leadsToFolder_nil : d.LeadsToFolder l [] l' ↔ l' = l ∧ d.entry? l = some .folder := by
  constructor
  · rintro ⟨folder, leads | leads⟩
    · cases leads
      exact ⟨rfl, folder⟩
    · cases leads
  · rintro ⟨rfl, folder⟩
    exact ⟨folder, .inl rfl⟩

/-- One step on the way to a folder. -/
theorem leadsToFolder_cons {segment : String} {rest : List String} :
    d.LeadsToFolder l (segment :: rest) l' ↔
      d.entry? l = some .folder ∧
        (segment = "." ∧ d.LeadsToFolder l rest l' ∨
          segment = ".." ∧ d.LeadsToFolder l.dropLast rest l' ∨
          IsName segment ∧ d.LeadsToFolder (l ++ [segment]) rest l') := by
  constructor
  · rintro ⟨folder, leads | leads⟩
    · obtain ⟨there, ⟨rfl, on⟩ | ⟨rfl, on⟩ | ⟨name, ⟨_, other⟩ | ⟨_, on⟩⟩⟩ :=
        follow_cons_eq_ok.mp leads
      · exact ⟨there, .inl ⟨rfl, folder, .inl on⟩⟩
      · exact ⟨there, .inr (.inl ⟨rfl, folder, .inl on⟩)⟩
      · cases other
      · exact ⟨there, .inr (.inr ⟨name, folder, .inl on⟩)⟩
    · obtain ⟨there, ⟨rfl, on⟩ | ⟨rfl, on⟩ | ⟨name, ⟨rfl, same⟩ | ⟨_, on⟩⟩⟩ :=
        follow_cons_eq_ok.mp leads
      · exact ⟨there, .inl ⟨rfl, folder, .inr on⟩⟩
      · exact ⟨there, .inr (.inl ⟨rfl, folder, .inr on⟩)⟩
      · cases same
        exact ⟨there, .inr (.inr ⟨name, leadsToFolder_nil.mpr ⟨rfl, folder⟩⟩)⟩
      · exact ⟨there, .inr (.inr ⟨name, folder, .inr on⟩)⟩
  · rintro ⟨there, ⟨rfl, folder, leads⟩ | ⟨rfl, folder, leads⟩ | ⟨name, on⟩⟩
    · exact ⟨folder, leads.imp (fun leads => follow_cons_eq_ok.mpr ⟨there, .inl ⟨rfl, leads⟩⟩)
        fun leads => follow_cons_eq_ok.mpr ⟨there, .inl ⟨rfl, leads⟩⟩⟩
    · exact ⟨folder, leads.imp (fun leads => follow_cons_eq_ok.mpr ⟨there, .inr (.inl ⟨rfl, leads⟩)⟩)
        fun leads => follow_cons_eq_ok.mpr ⟨there, .inr (.inl ⟨rfl, leads⟩)⟩⟩
    · cases rest with
      | nil =>
        obtain ⟨rfl, folder⟩ := leadsToFolder_nil.mp on
        exact ⟨folder, .inr (follow_cons_eq_ok.mpr ⟨there, .inr (.inr ⟨name, .inl ⟨rfl, rfl⟩⟩)⟩)⟩
      | cons next rest =>
        obtain ⟨folder, leads⟩ := on
        have more : next :: rest ≠ [] := List.cons_ne_nil _ _
        exact ⟨folder, leads.imp
          (fun leads => follow_cons_eq_ok.mpr ⟨there, .inr (.inr ⟨name, .inr ⟨more, leads⟩⟩)⟩)
          fun leads => follow_cons_eq_ok.mpr ⟨there, .inr (.inr ⟨name, .inr ⟨more, leads⟩⟩)⟩⟩

/-- **On its way** a path leads through folders. -/
theorem exists_leadsToFolder_of_follow_append {front back : List String} (more : back ≠ [])
    (leads : d.follow l (front ++ back) = .ok target) : ∃ l', d.LeadsToFolder l front l' := by
  induction front generalizing l with
  | nil =>
    cases back with
    | nil => exact absurd rfl more
    | cons next rest =>
      exact ⟨l, leadsToFolder_nil.mpr ⟨rfl, (follow_cons_eq_ok.mp leads).1⟩⟩
  | cons segment front ih =>
    obtain ⟨there, ⟨rfl, later⟩ | ⟨rfl, later⟩ | ⟨name, ⟨none_left, _⟩ | ⟨_, later⟩⟩⟩ :=
      follow_cons_eq_ok.mp leads
    · obtain ⟨l', on⟩ := ih later
      exact ⟨l', leadsToFolder_cons.mpr ⟨there, .inl ⟨rfl, on⟩⟩⟩
    · obtain ⟨l', on⟩ := ih later
      exact ⟨l', leadsToFolder_cons.mpr ⟨there, .inr (.inl ⟨rfl, on⟩)⟩⟩
    · exact absurd (List.append_eq_nil_iff.mp none_left).2 more
    · obtain ⟨l', on⟩ := ih later
      exact ⟨l', leadsToFolder_cons.mpr ⟨there, .inr (.inr ⟨name, on⟩)⟩⟩

/-- **From a folder on its way** a path goes on as from the start. -/
theorem LeadsToFolder.follow_append_eq {start : Location} {front rest : List String}
    (h : d.LeadsToFolder start front l) (more : rest ≠ []) :
    d.follow start (front ++ rest) = d.follow l rest := by
  induction front generalizing start with
  | nil =>
    obtain ⟨rfl, _⟩ := leadsToFolder_nil.mp h
    rfl
  | cons segment front ih =>
    obtain ⟨there, ⟨rfl, on⟩ | ⟨rfl, on⟩ | ⟨name, on⟩⟩ := leadsToFolder_cons.mp h
    · rw [← ih on, List.cons_append, follow.eq_def]
      simp [there]
    · rw [← ih on, List.cons_append, follow.eq_def]
      simp [there]
    · rw [← ih on, List.cons_append, follow.eq_def]
      obtain ⟨not_dot, not_up, short⟩ := name
      obtain ⟨next, later, behind⟩ := List.exists_cons_of_ne_nil
        (List.append_ne_nil_of_right_ne_nil front more)
      simp [there, not_dot, not_up, Nat.not_lt.mpr short, behind]

/-- A path to a location ends in a name, and in front of the name it leads to a folder. -/
theorem exists_leadsToFolder_of_follow_concat {start : Location} {front : List String}
    {name : String} (leads : d.follow start (front ++ [name]) = .ok (.named l)) :
    ∃ above, d.LeadsToFolder start front above ∧ IsName name ∧ l = above ++ [name] := by
  obtain ⟨above, folder⟩ := exists_leadsToFolder_of_follow_append (by simp) leads
  rw [folder.follow_append_eq (by simp)] at leads
  obtain ⟨_, ⟨_, other⟩ | ⟨_, other⟩ | ⟨is_name, ⟨_, same⟩ | ⟨more, _⟩⟩⟩ :=
    follow_cons_eq_ok.mp leads
  · cases other
  · cases other
  · cases same
    exact ⟨above, folder, is_name, rfl⟩
  · exact absurd rfl more

/-- The way to a folder without the segments that stay. -/
theorem LeadsToFolder.filter {segments : List String} (h : d.LeadsToFolder l segments l') :
    d.LeadsToFolder l (segments.filter (· != ".")) l' := by
  induction segments generalizing l with
  | nil => exact h
  | cons segment rest ih =>
    obtain ⟨there, ⟨rfl, on⟩ | ⟨rfl, on⟩ | ⟨name, on⟩⟩ := leadsToFolder_cons.mp h
    · simpa using ih on
    · have kept : (".." :: rest).filter (· != ".") = ".." :: rest.filter (· != ".") :=
        List.filter_cons_of_pos (by decide)
      rw [kept]
      exact leadsToFolder_cons.mpr ⟨there, .inr (.inl ⟨rfl, ih on⟩)⟩
    · have kept : (segment :: rest).filter (· != ".") = segment :: rest.filter (· != ".") :=
        List.filter_cons_of_pos (by simpa using name.1)
      rw [kept]
      exact leadsToFolder_cons.mpr ⟨there, .inr (.inr ⟨name, ih on⟩)⟩

end Disk

namespace Path

/-- The components of a path that ends in a name. -/
theorem components_append_singleton (absolute trailing trailing' : Bool) (segments : List String)
    {name : String} (ne : name ≠ ".") :
    components ⟨absolute, segments ++ [name], trailing⟩ =
      components ⟨absolute, segments, trailing'⟩ ++ [name] := by
  cases segments with
  | nil => simp [components, ne]
  | cons first rest =>
    by_cases dropped : (first == "." && absolute) = true
    · simp [components, dropped, ne]
    · simp [components, dropped, ne]

theorem mem_of_mem_components {p : Path} {segment : String} (mem : segment ∈ p.components) :
    segment ∈ p.segments := by
  obtain ⟨absolute, segments, trailing⟩ := p
  cases segments with
  | nil => exact mem
  | cons first rest =>
    rw [components] at mem
    dsimp only at mem ⊢
    split at mem
    next => exact List.mem_cons_of_mem _ (List.mem_of_mem_filter mem)
    next =>
      rcases List.mem_cons.mp mem with rfl | mem
      · exact List.mem_cons_self
      · exact List.mem_cons_of_mem _ (List.mem_of_mem_filter mem)

end Path

namespace Disk

variable {d : Disk} {l l' : Location}

/-- The way to a folder, by the components of its path. -/
theorem LeadsToFolder.components {p : Path} (h : d.LeadsToFolder l p.segments l') :
    d.LeadsToFolder l p.components l' := by
  obtain ⟨absolute, segments, trailing⟩ := p
  cases segments with
  | nil => exact h
  | cons first rest =>
    rw [Path.components]
    dsimp only
    split
    next dropped =>
      have stays : first = "." := by
        simp only [Bool.and_eq_true, beq_iff_eq] at dropped
        exact dropped.1
      have filtered := h.filter
      simpa [stays] using filtered
    next =>
      obtain ⟨there, ⟨rfl, on⟩ | ⟨rfl, on⟩ | ⟨name, on⟩⟩ := leadsToFolder_cons.mp h
      · exact leadsToFolder_cons.mpr ⟨there, .inl ⟨rfl, on.filter⟩⟩
      · exact leadsToFolder_cons.mpr ⟨there, .inr (.inl ⟨rfl, on.filter⟩)⟩
      · exact leadsToFolder_cons.mpr ⟨there, .inr (.inr ⟨name, on.filter⟩)⟩

end Disk

namespace Workspace

open Disk

variable {w : Workspace} {d d' made made' : Disk} {S : Set Location} {path : String} {target : Target}

/-- The folder that a path of the workspace is in is there. -/
def HasParent (w : Workspace) (d : Disk) (path : String) : Prop :=
  ∀ parent, (w.pathOf path).parent? = some parent → parent.isEmpty = true ∨ d.isFolder parent = true

theorem HasParent.of_changesWithin (h : w.HasParent d path) (changes : ChangesWithin S d d') :
    w.HasParent d' path :=
  fun parent found => (h parent found).imp id changes.isFolder

/-- **The folder of a file is there** if a path leads on from it, or to it. -/
theorem hasParent_of_follow {above onward : List String} {name : String}
    (segments : (w.pathOf path).segments = above ++ [name]) (ne_dot : name ≠ ".")
    (no_zero : ∀ segment ∈ above, '\x00' ∉ segment.toList) (more : onward ≠ [])
    (leads : d.follow (if w.root.absolute then [] else d.here) (above ++ onward) = .ok target) :
    w.HasParent d path := by
  -- the way on leads through the folder
  obtain ⟨l, through⟩ := exists_leadsToFolder_of_follow_append more leads
  intro parent found
  have path_eq : w.pathOf path = ⟨w.root.absolute, above ++ [name], (w.pathOf path).trailing⟩ := by
    rw [← segments, ← absolute_pathOf w path]
  rw [path_eq, Path.parent?, Path.components_append_singleton _ _ false _ ne_dot] at found
  have parent_eq : (⟨w.root.absolute, Path.components ⟨w.root.absolute, above, false⟩, false⟩ :
      Path) = parent := by simpa using found
  subst parent_eq
  refine or_iff_not_imp_left.mpr fun something => ?_
  obtain ⟨there, leads⟩ := LeadsToFolder.components (p := ⟨w.root.absolute, above, false⟩) through
  have resolves {target : Target} (leads : d.follow (if w.root.absolute then [] else d.here)
      (Path.components ⟨w.root.absolute, above, false⟩) = .ok target) := resolve_eq_ok.mpr
    ⟨fun segment mem => no_zero segment (Path.mem_of_mem_components mem),
      Bool.eq_false_iff.mpr something, leads⟩
  exact isFolder_iff.mpr ⟨l, leads.imp resolves fun leads => ⟨resolves leads, there⟩⟩

theorem hasParent_of_resolve {folder file onward : String}
    (leads : d.resolve (w.pathOf (folder ++ "/" ++ onward)) = .ok target)
    (more : Path.segmentsOf onward.toList ≠ []) (ne : file.toList ≠ []) (ne_dot : file ≠ ".")
    (no_slash : '/' ∉ file.toList) : w.HasParent d (folder ++ "/" ++ file) := by
  obtain ⟨no_zero, _, onward_leads⟩ := resolve_eq_ok.mp leads
  rw [segments_pathOf_in] at no_zero
  rw [segments_pathOf_in, absolute_pathOf] at onward_leads
  exact hasParent_of_follow (segments_pathOf_of_name w folder ne no_slash) ne_dot
    (fun segment mem => no_zero segment (List.mem_append_left _ mem)) (by simpa using more) onward_leads

/-! ### Making way for a file -/

/-- The folders that lead to a file are made on the first disk, as far as they are not there, and the
second disk is the one with them.  It is not unfolded by itself, which would make them. -/
@[irreducible] def MakesWay (w : Workspace) (path : String) (d made : Disk) : Prop :=
  match (w.pathOf path).parent? with
  | some parent => d.createFolders parent = (.ok (), made)
  | none => made = d

theorem makesWay_of_parent {parent : Path} (found : (w.pathOf path).parent? = some parent) :
    w.MakesWay path d made ↔ d.createFolders parent = (.ok (), made) := by
  rw [MakesWay, found]

theorem makesWay_of_no_parent (found : (w.pathOf path).parent? = none) :
    w.MakesWay path d made ↔ made = d := by
  rw [MakesWay, found]

/-- **Where the folder of a file is there**, none is made. -/
theorem HasParent.makesWay (h : w.HasParent d path) : w.MakesWay path d d := by
  cases found : (w.pathOf path).parent? with
  | none => exact (makesWay_of_no_parent found).mpr rfl
  | some parent => exact (makesWay_of_parent found).mpr (createFolders_of_isFolder (h parent found))

namespace MakesWay

theorem unique (h : w.MakesWay path d made) (h' : w.MakesWay path d made') : made = made' := by
  cases found : (w.pathOf path).parent? with
  | none => rw [(makesWay_of_no_parent found).mp h, (makesWay_of_no_parent found).mp h']
  | some parent =>
    have both := ((makesWay_of_parent found).mp h).symm.trans ((makesWay_of_parent found).mp h')
    exact (Prod.mk.inj both).2

theorem changesWithin (h : w.MakesWay path d made) : ChangesWithin ∅ d made := by
  cases found : (w.pathOf path).parent? with
  | none => rw [(makesWay_of_no_parent found).mp h]
  | some parent =>
    have kept := changesWithin_createFolders parent d
    rwa [(makesWay_of_parent found).mp h] at kept

/-- **Once way is made**, the folder of the file is there. -/
theorem hasParent (h : w.MakesWay path d made) : w.HasParent made path := by
  intro parent found
  exact isFolder_of_createFolders ((makesWay_of_parent found).mp h)

end MakesWay

end Workspace

end ModelGrid.Store
