import ModelGrid.Proofs.Store.Frame
import ModelGrid.Proofs.Store.Listing

/-!
# Plain paths in a tree

A path without dots has one location, below the root of its workspace: that of its segments.  On a disk
that is a tree it leads there, or nowhere.  Operations keep a disk a tree, and the root of a workspace
where it is.

## Main definitions

* `Disk.IsTree`: everything is in a folder and has a name.
* `IsPlain`, `locationOf`: a path without dots, and where it leads.
* `Workspace.Rooted`: the root of a workspace is a folder of a tree.

## Main results

* `Disk.WellFormed.isTree`, `Disk.IsTree.put`, `Disk.IsTree.erase`, `Disk.IsTree.createFolders`: trees
  stay trees.
* `Workspace.Rooted.find_iff`: a file is found by a path if and only if it is at the path's location.
-/

namespace ModelGrid.Store

open Disk

/-- Everything is in a folder, and has a name that may be followed. -/
def Disk.IsTree (d : Disk) : Prop :=
  ∀ above name, d.entry? (above ++ [name]) ≠ none →
    d.entry? above = some .folder ∧ IsName name ∧ '\x00' ∉ name.toList

/-- The path is written without dots and without a slash at its end. -/
structure IsPlain (path : String) : Prop where
  no_dots : ∀ segment ∈ Path.segmentsOf path.toList, segment ≠ ['.'] ∧ segment ≠ ['.', '.']
  open_end : path.toList.getLast? ≠ some '/'

instance (path : String) : Decidable (IsPlain path) :=
  decidable_of_iff ((∀ segment ∈ Path.segmentsOf path.toList, segment ≠ ['.'] ∧ segment ≠ ['.', '.']) ∧
      path.toList.getLast? ≠ some '/')
    ⟨fun ⟨no_dots, open_end⟩ => ⟨no_dots, open_end⟩, fun h => ⟨h.no_dots, h.open_end⟩⟩

/-- The segments of a path that are not empty. -/
def segmentsBelow (path : String) : List String := (Path.segmentsOf path.toList).map String.ofList

/-- The location of a path in a workspace with a root. -/
def locationOf (root : Location) (path : String) : Location := root ++ segmentsBelow path

theorem IsPlain.isPlain_segments {path : String} (h : IsPlain path) :
    ∀ segment ∈ segmentsBelow path, segment ≠ "." ∧ segment ≠ ".." := by
  intro segment mem
  obtain ⟨written, written_mem, rfl⟩ := List.mem_map.mp mem
  obtain ⟨not_dot, not_up⟩ := h.no_dots written written_mem
  constructor
  · intro dot
    exact not_dot (by rw [← String.toList_ofList (l := written), dot]; rfl)
  · intro up
    exact not_up (by rw [← String.toList_ofList (l := written), up]; rfl)

namespace Disk

variable {d d' : Disk} {p : Path} {l root : Location} {e : Entry} {segments : List String}

/-! ### Names that are followed -/

/-- A path that leads to a name leads to one in a folder. -/
theorem exists_name_of_follow (leads : d.follow root segments = .ok (.named l)) :
    ∃ above name, l = above ++ [name] ∧ d.entry? above = some .folder ∧ IsName name ∧
      name ∈ segments := by
  induction segments generalizing root with
  | nil => cases leads
  | cons segment rest ih =>
    have later {start : Location} (leads : d.follow start rest = .ok (.named l)) :
        ∃ above name, l = above ++ [name] ∧ d.entry? above = some .folder ∧ IsName name ∧
          name ∈ segment :: rest := by
      obtain ⟨above, name, rfl, folder, isName, mem⟩ := ih leads
      exact ⟨above, name, rfl, folder, isName, List.mem_cons_of_mem _ mem⟩
    obtain ⟨there, ⟨_, on⟩ | ⟨_, on⟩ | ⟨isName, ⟨_, named⟩ | ⟨_, on⟩⟩⟩ := follow_cons_eq_ok.mp leads
    · exact later on
    · exact later on
    · cases named
      exact ⟨root, segment, rfl, there, isName, List.mem_cons_self⟩
    · exact later on

/-- Without dots, the segments that are followed are those of the location. -/
theorem eq_append_of_follow (plain : ∀ segment ∈ segments, segment ≠ "." ∧ segment ≠ "..")
    (leads : d.follow root segments = .ok (.named l)) : l = root ++ segments := by
  induction segments generalizing root with
  | nil => cases leads
  | cons segment rest ih =>
    obtain ⟨not_dot, not_up⟩ := plain segment List.mem_cons_self
    have plain_rest := fun other mem => plain other (List.mem_cons_of_mem segment mem)
    obtain ⟨_, ⟨dot, _⟩ | ⟨up, _⟩ | ⟨_, ⟨rfl, named⟩ | ⟨_, on⟩⟩⟩ := follow_cons_eq_ok.mp leads
    · exact absurd dot not_dot
    · exact absurd up not_up
    · cases named
      rfl
    · rw [ih plain_rest on, List.append_assoc, List.singleton_append]

/-! ### Trees -/

theorem WellFormed.isTree (tree : d.WellFormed) : d.IsTree := by
  intro above name there
  obtain ⟨e, there⟩ := Option.ne_none_iff_exists'.mp there
  have mem := (tree.entry?_eq_some_iff (by simp)).mp there
  have file := tree.names _ mem name (by simp)
  have folder := tree.parent _ mem
  rw [List.dropLast_concat] at folder
  exact ⟨folder, file.isName, file.no_zero⟩

namespace IsTree

/-- Everything on the way to a location is a folder. -/
theorem folder_of_append (tree : d.IsTree) (more : segments ≠ [])
    (there : d.entry? (root ++ segments) ≠ none) :
    d.entry? root = some .folder ∧ ∀ name ∈ segments, IsName name ∧ '\x00' ∉ name.toList := by
  induction segments using List.reverseRecOn with
  | nil => exact absurd rfl more
  | append_singleton front name ih =>
    rw [← List.append_assoc] at there
    obtain ⟨folder, isName⟩ := tree _ _ there
    by_cases last : front = []
    · subst last
      rw [List.append_nil] at folder
      exact ⟨folder, by simpa using isName⟩
    · obtain ⟨folder', names⟩ := ih last (by simp [folder])
      refine ⟨folder', fun other mem => ?_⟩
      rcases List.mem_append.mp mem with mem | mem
      · exact names other mem
      · rw [List.mem_singleton.mp mem]
        exact isName

/-- **What is at a location** is led to by the segments of the location. -/
theorem follow_eq (tree : d.IsTree) (more : segments ≠ [])
    (there : d.entry? (root ++ segments) ≠ none) :
    d.follow root segments = .ok (.named (root ++ segments)) := by
  induction segments generalizing root with
  | nil => exact absurd rfl more
  | cons segment rest ih =>
    obtain ⟨folder, names⟩ := tree.folder_of_append more there
    have isName := (names segment List.mem_cons_self).1
    refine follow_cons_eq_ok.mpr ⟨folder, .inr (.inr ⟨isName, ?_⟩)⟩
    by_cases last : rest = []
    · exact .inl ⟨last, by rw [last]⟩
    · rw [← List.singleton_append, ← List.append_assoc] at there ⊢
      exact .inr ⟨last, ih last there⟩

/-- Whatever is put where a path leads, the disk stays a tree. -/
theorem put (tree : d.IsTree) (leads : d.resolve p = .ok (.named l))
    (free : d.entry? l ≠ some .folder) : (d.put l e).IsTree := by
  intro above name there
  have above_ne : d.entry? above = some .folder → above ≠ l := by
    rintro folder rfl
    exact free folder
  by_cases here : above ++ [name] = l
  · obtain ⟨no_zero, _, on⟩ := resolve_eq_ok.mp leads
    obtain ⟨above', name', l_eq, folder, isName, mem⟩ := exists_name_of_follow on
    obtain ⟨rfl, same⟩ := List.append_inj' (here.trans l_eq) rfl
    cases same
    rw [entry?_put_of_ne (above_ne folder)]
    exact ⟨folder, isName, no_zero _ mem⟩
  · rw [entry?_put_of_ne here] at there
    obtain ⟨folder, isName⟩ := tree above name there
    rw [entry?_put_of_ne (above_ne folder)]
    exact ⟨folder, isName⟩

/-- Without a file the disk stays a tree. -/
theorem erase (tree : d.IsTree) (free : d.entry? l ≠ some .folder) : (d.erase l).IsTree := by
  intro above name there
  by_cases here : above ++ [name] = l
  · rw [here, entry?_erase (ne_nil_of_entry?_ne free)] at there
    exact absurd rfl there
  · rw [entry?_erase_of_ne here] at there
    obtain ⟨folder, isName⟩ := tree above name there
    have above_ne : above ≠ l := by
      rintro rfl
      exact free folder
    rw [entry?_erase_of_ne above_ne]
    exact ⟨folder, isName⟩

theorem createFolder (tree : d.IsTree) (made : d.createFolder p = .ok d') : d'.IsTree := by
  obtain ⟨l, leads, free, rfl⟩ := createFolder_eq_ok.mp made
  exact tree.put leads (by simp [free])

theorem createFolders (tree : d.IsTree) (p : Path) : (d.createFolders p).2.IsTree :=
  createFoldersUpTo_keeps (P := IsTree) createFolder _ p tree

end IsTree

end Disk

namespace Workspace

variable {w : Workspace} {root l : Location} {d d' : Disk} {path : String} {content : Content}
  {S : Set Location}

/-! ### The root of a workspace -/

/-- The disk is a tree, and the root of the workspace leads to a folder of it. -/
structure Rooted (w : Workspace) (root : Location) (d : Disk) : Prop where
  tree : d.IsTree
  way : d.LeadsToFolder (if w.root.absolute then [] else d.here) w.root.segments root
  no_zero : ∀ segment ∈ w.root.segments, '\x00' ∉ segment.toList
  something : w.root.isEmpty = false

theorem rooted_of_find (tree : d.WellFormed) (found : d.find w.root = .ok (root, .folder)) :
    w.Rooted root d := by
  refine ⟨tree.isTree, tree.leadsToFolder_of_find found, no_zero_of_find found, ?_⟩
  rw [Disk.find] at found
  split at found
  next => cases found
  next leads => exact (resolve_eq_ok.mp leads).2.1
  next leads => exact (resolve_eq_ok.mp leads).2.1

namespace Rooted

/-- The root stays, whatever is done to files. -/
theorem of_changesWithin (h : w.Rooted root d) (changes : ChangesWithin S d d') (tree : d'.IsTree) :
    w.Rooted root d' := by
  refine ⟨tree, ⟨changes.folder root h.way.1, ?_⟩, h.no_zero, h.something⟩
  rw [changes.here]
  exact h.way.2.imp changes.follow_eq changes.follow_eq

/-- Where a path without dots leads, if its end is not the root. -/
theorem follow_pathOf (h : w.Rooted root d) (more : segmentsBelow path ≠ []) :
    d.follow (if (w.pathOf path).absolute then [] else d.here) (w.pathOf path).segments =
      d.follow root (segmentsBelow path) := by
  rw [w.absolute_pathOf, w.segments_pathOf, ← segmentsBelow]
  exact h.way.follow_append_eq more

/-- **A path leads to its location**, if anywhere. -/
theorem eq_locationOf (h : w.Rooted root d) (plain : IsPlain path) (leads : d.Leads (w.pathOf path) l) :
    l = locationOf root path := by
  obtain ⟨_, _, on⟩ := resolve_eq_ok.mp leads.resolve
  by_cases more : segmentsBelow path = []
  · rw [w.absolute_pathOf, w.segments_pathOf, ← segmentsBelow, more, List.append_nil] at on
    rcases h.way.2 with folder | named
    · rw [on] at folder
      cases folder
    · rw [on] at named
      cases named
      exact absurd h.way.1 leads.free
  · rw [h.follow_pathOf more] at on
    exact eq_append_of_follow plain.isPlain_segments on

/-- **A file is found** by a path if and only if it is at the location of the path. -/
theorem find_iff (h : w.Rooted root d) (plain : IsPlain path) :
    d.find (w.pathOf path) = .ok (l, .file content) ↔
      l = locationOf root path ∧ d.entry? (locationOf root path) = some (.file content) := by
  constructor
  · intro found
    obtain rfl := h.eq_locationOf plain (leads_of_find found)
    exact ⟨rfl, (find_eq_ok_file.mp found).2.1⟩
  · rintro ⟨rfl, there⟩
    have more : segmentsBelow path ≠ [] := by
      intro none_there
      rw [locationOf, none_there, List.append_nil, h.way.1] at there
      cases there
    have written : Path.segmentsOf path.toList ≠ [] := by
      rw [segmentsBelow] at more
      simpa using more
    have some_entry : d.entry? (root ++ segmentsBelow path) ≠ none := by
      rw [← locationOf, there]
      nofun
    refine find_eq_ok_file.mpr ⟨resolve_eq_ok.mpr ⟨?_, ?_, ?_⟩, there, ?_⟩
    · rw [w.segments_pathOf, ← segmentsBelow]
      intro segment mem
      rcases List.mem_append.mp mem with above | below
      · exact h.no_zero segment above
      · exact ((h.tree.folder_of_append more some_entry).2 segment below).2
    · simp [Path.isEmpty, w.segments_pathOf, written]
    · rw [h.follow_pathOf more]
      exact h.tree.follow_eq more some_entry
    · exact w.trailing_pathOf_of_open_end plain.open_end written

end Rooted

end Workspace

end ModelGrid.Store
