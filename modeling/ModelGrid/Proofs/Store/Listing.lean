import ModelGrid.Proofs.Store.Folder
import Mathlib.Data.List.Nodup
import Mathlib.Data.List.Sort
import Mathlib.Data.String.Basic

/-!
# What a folder lists

On a disk that is a tree, with each location once and names that can be written in a path, a file that
a folder lists is found at its name behind the path of the folder.

## Main definitions

* `IsFileName`: a name that something on a disk may have.
* `Disk.WellFormed`: the disk is a tree.

## Main results

* `Disk.WellFormed.find_of_listing`: a file that is listed is found.
-/

namespace ModelGrid.Store

open Disk

/-- The name may be written in a path, as one segment that leads to something of that name. -/
structure IsFileName (name : String) : Prop where
  isName : IsName name
  ne : name.toList ≠ []
  no_slash : '/' ∉ name.toList
  no_zero : '\x00' ∉ name.toList

instance (name : String) : Decidable (IsFileName name) :=
  decidable_of_iff ((name ≠ "." ∧ name ≠ ".." ∧ name.utf8ByteSize ≤ nameLimit) ∧ name.toList ≠ [] ∧
      '/' ∉ name.toList ∧ '\x00' ∉ name.toList)
    ⟨fun ⟨isName, ne, no_slash, no_zero⟩ => ⟨isName, ne, no_slash, no_zero⟩,
      fun h => ⟨h.isName, h.ne, h.no_slash, h.no_zero⟩⟩

/-- The disk is a tree: each location is there once, is in a folder and is made of names. -/
structure Disk.WellFormed (d : Disk) : Prop where
  once : (d.entries.map Prod.fst).Nodup
  parent : ∀ entry ∈ d.entries, d.entry? entry.1.dropLast = some .folder
  names : ∀ entry ∈ d.entries, ∀ name ∈ entry.1, IsFileName name

namespace Disk

variable {d d' : Disk} {l l' : Location} {e : Entry} {name : String} {content : Content}

/-! ### Names in order -/

theorem placeName_eq (name : String) (names : List String) :
    placeName name names = names.orderedInsert (· ≤ ·) name := by
  induction names with
  | nil => rfl
  | cons next rest ih =>
    rw [placeName, List.orderedInsert_cons, ih]
    by_cases less : next < name
    · rw [if_pos less, if_neg (not_le_of_gt less)]
    · rw [if_neg less, if_pos (le_of_not_gt less)]

/-- Names are put in order by insertion. -/
theorem sortNames_eq (names : List String) : sortNames names = names.insertionSort (· ≤ ·) := by
  induction names with
  | nil => rfl
  | cons next rest ih =>
    rw [List.insertionSort_cons, ← ih, ← placeName_eq]
    rfl

theorem mem_sortNames {names : List String} : name ∈ sortNames names ↔ name ∈ names := by
  rw [sortNames_eq, List.mem_insertionSort]

theorem pairwise_sortNames (names : List String) : (sortNames names).Pairwise (· ≤ ·) := by
  rw [sortNames_eq]
  exact List.pairwise_insertionSort _ names

/-- Names come in one order, whatever order they are in before. -/
theorem sortNames_congr {names names' : List String} (same : names.Perm names') :
    sortNames names = sortNames names' := by
  have perm : (sortNames names).Perm (sortNames names') := by
    rw [sortNames_eq, sortNames_eq]
    exact (List.perm_insertionSort _ _).trans (same.trans (List.perm_insertionSort _ _).symm)
  exact perm.eq_of_pairwise (fun _ _ _ _ le ge => le_antisymm le ge) (pairwise_sortNames names)
    (pairwise_sortNames names')

theorem childIn?_eq_some {folder : Location} {entry : Location × Entry} :
    childIn? folder entry = some (name, e) ↔ entry = (folder ++ [name], e) := by
  obtain ⟨l, e'⟩ := entry
  rw [childIn?]
  rcases l.eq_nil_or_concat with rfl | ⟨above, last, rfl⟩
  · simp
  · by_cases here : above = folder
    · simp [here]
    · simp [here]

/-- The names in order of what is directly in a folder and wanted. -/
def namesIn (d : Disk) (folder : Location) (isWanted : Entry → Bool) : List String :=
  sortNames (((d.entries.filterMap (childIn? folder)).filter fun child => isWanted child.2).map Prod.fst)

theorem mem_namesIn {folder : Location} {isWanted : Entry → Bool} :
    name ∈ d.namesIn folder isWanted ↔ ∃ e, isWanted e = true ∧ (folder ++ [name], e) ∈ d.entries := by
  rw [namesIn, mem_sortNames]
  simp only [List.mem_map, List.mem_filter, List.mem_filterMap, Prod.exists, childIn?_eq_some]
  constructor
  · rintro ⟨_, e, ⟨⟨l, e', mem, same⟩, wanted⟩, rfl⟩
    cases same
    exact ⟨e, wanted, mem⟩
  · rintro ⟨e, wanted, mem⟩
    exact ⟨name, e, ⟨⟨_, _, mem, rfl⟩, wanted⟩, rfl⟩

theorem listingAt_eq (d : Disk) (folder : Location) :
    d.listingAt folder =
      { files := d.namesIn folder fun entry => match entry with | .file _ => true | .folder => false
        folders :=
          d.namesIn folder fun entry => match entry with | .file _ => false | .folder => true } :=
  rfl

/-- The files of a listing. -/
theorem mem_files_listingAt {folder : Location} :
    name ∈ (d.listingAt folder).files ↔
      ∃ content, (folder ++ [name], .file content) ∈ d.entries := by
  rw [listingAt_eq, mem_namesIn]
  refine ⟨?_, fun ⟨content, mem⟩ => ⟨.file content, rfl, mem⟩⟩
  rintro ⟨e, wanted, mem⟩
  cases e with
  | file content => exact ⟨content, mem⟩
  | folder => cases wanted

/-- The folders of a listing. -/
theorem mem_folders_listingAt {folder : Location} :
    name ∈ (d.listingAt folder).folders ↔ (folder ++ [name], .folder) ∈ d.entries := by
  rw [listingAt_eq, mem_namesIn]
  refine ⟨?_, fun mem => ⟨.folder, rfl, mem⟩⟩
  rintro ⟨e, wanted, mem⟩
  cases e with
  | file content => cases wanted
  | folder => exact mem

theorem pairwise_files_listingAt (d : Disk) (folder : Location) :
    (d.listingAt folder).files.Pairwise (· ≤ ·) := pairwise_sortNames _

theorem pairwise_folders_listingAt (d : Disk) (folder : Location) :
    (d.listingAt folder).folders.Pairwise (· ≤ ·) := pairwise_sortNames _

/-! ### Enumeration -/

/-- A disk with the same entries, in whatever order it has them. -/
structure SameEntries (d d' : Disk) : Prop where
  here : d'.here = d.here
  entries : d'.entries.Perm d.entries

theorem SameEntries.listingAt_eq (same : d.SameEntries d') (folder : Location) :
    d'.listingAt folder = d.listingAt folder := by
  have namesIn_eq (isWanted : Entry → Bool) :
      d'.namesIn folder isWanted = d.namesIn folder isWanted :=
    sortNames_congr (((same.entries.filterMap _).filter _).map _)
  rw [Disk.listingAt_eq, Disk.listingAt_eq, namesIn_eq, namesIn_eq]

/-- Paths lead to the same if the same is at each location. -/
theorem find_congr (here : d'.here = d.here) (same : ∀ l, d'.entry? l = d.entry? l) (p : Path) :
    d'.find p = d.find p := by
  have follow_eq (segments : List String) (l : Location) : d'.follow l segments = d.follow l segments := by
    induction segments generalizing l with
    | nil => rfl
    | cons segment rest ih =>
      rw [follow.eq_def, follow.eq_def d]
      simp only [same l, ih]
  rw [find, find, resolve, resolve, here, follow_eq]
  simp only [same]

/-! ### Ways through a tree -/

/-- The way to a folder, and on to a name in it. -/
theorem LeadsToFolder.follow_append {segments : List String} (h : d.LeadsToFolder l segments l')
    (isName : IsName name) : d.follow l (segments ++ [name]) = .ok (.named (l' ++ [name])) := by
  rw [h.follow_append_eq (List.cons_ne_nil _ _)]
  exact follow_cons_eq_ok.mpr ⟨h.1, .inr (.inr ⟨isName, .inl ⟨rfl, rfl⟩⟩)⟩

theorem no_zero_of_find {p : Path} (found : d.find p = .ok (l, e)) :
    ∀ segment ∈ p.segments, '\x00' ∉ segment.toList := by
  rw [find] at found
  split at found
  next => cases found
  next leads => exact (resolve_eq_ok.mp leads).1
  next leads => exact (resolve_eq_ok.mp leads).1

/-- Where each location is there once, what is at a location is the one entry for it. -/
theorem entry?_eq_some_iff_of_once (once : (d.entries.map Prod.fst).Nodup) (named : l ≠ []) :
    d.entry? l = some e ↔ (l, e) ∈ d.entries := by
  rw [entry?_of_ne_nil named]
  constructor
  · intro there
    obtain ⟨entry, found, rfl⟩ := Option.map_eq_some_iff.mp there
    obtain rfl : entry.1 = l := by simpa using List.find?_some found
    exact List.mem_of_find?_eq_some found
  · intro mem
    have some_entry : (d.entries.find? fun entry => entry.1 == l).isSome := by
      rw [List.find?_isSome]
      exact ⟨(l, e), mem, by simp⟩
    obtain ⟨entry, found⟩ := Option.isSome_iff_exists.mp some_entry
    have same : entry.1 = l := by simpa using List.find?_some found
    have only := List.inj_on_of_nodup_map once (List.mem_of_find?_eq_some found) mem same
    rw [found, only]
    rfl

namespace WellFormed

variable (tree : d.WellFormed)
include tree

/-- What is at a location is the one entry that the disk has for it. -/
theorem entry?_eq_some_iff (named : l ≠ []) : d.entry? l = some e ↔ (l, e) ∈ d.entries :=
  entry?_eq_some_iff_of_once tree.once named

/-- The order of the entries does not decide what is found. -/
theorem find_eq_of_sameEntries (same : d.SameEntries d') (p : Path) : d'.find p = d.find p := by
  have once' : (d'.entries.map Prod.fst).Nodup :=
    (same.entries.map Prod.fst).nodup_iff.mpr tree.once
  refine find_congr same.here (fun l => ?_) p
  by_cases named : l = []
  · rw [named, entry?_nil, entry?_nil]
  · ext e
    rw [entry?_eq_some_iff_of_once once' named, same.entries.mem_iff, tree.entry?_eq_some_iff named]

theorem folder_dropLast (there : d.entry? l = some .folder) : d.entry? l.dropLast = some .folder := by
  by_cases named : l = []
  · rw [named]
    rfl
  · exact tree.parent _ ((tree.entry?_eq_some_iff named).mp there)

/-- Dots in a tree lead from folders to folders. -/
theorem folder_of_follow {segments : List String} (there : d.entry? l = some .folder)
    (leads : d.follow l segments = .ok (.folder l')) : d.entry? l' = some .folder := by
  induction segments generalizing l with
  | nil =>
    cases leads
    exact there
  | cons segment rest ih =>
    obtain ⟨_, ⟨rfl, later⟩ | ⟨rfl, later⟩ | ⟨name, ⟨_, other⟩ | ⟨more, later⟩⟩⟩ :=
      follow_cons_eq_ok.mp leads
    · exact ih there later
    · exact ih (tree.folder_dropLast there) later
    · cases other
    · cases rest with
      | nil => exact absurd rfl more
      | cons next rest => exact ih (follow_cons_eq_ok.mp later).1 later

/-- A path to a folder is a way to it. -/
theorem leadsToFolder_of_find {p : Path} (found : d.find p = .ok (l, .folder)) :
    d.LeadsToFolder (if p.absolute then [] else d.here) p.segments l := by
  -- the first step needs a folder to start from; without a step the path is that of the top
  have begins {segments : List String} {target : Target} (something : p.isEmpty = false)
      (eq : p.segments = segments)
      (leads : d.follow (if p.absolute then [] else d.here) segments = .ok target) :
      d.entry? (if p.absolute then [] else d.here) = some .folder := by
    cases segments with
    | nil =>
      have absolute : p.absolute = true := by simpa [Path.isEmpty, eq] using something
      rw [if_pos absolute]
      rfl
    | cons segment rest => exact (follow_cons_eq_ok.mp leads).1
  rw [find] at found
  split at found
  next => cases found
  next folder leads =>
    cases found
    obtain ⟨_, something, leads⟩ := resolve_eq_ok.mp leads
    exact ⟨tree.folder_of_follow (begins something rfl leads) leads, .inl leads⟩
  next named leads =>
    split at found
    next => cases found
    next there =>
      cases found
      exact ⟨there, .inr (resolve_eq_ok.mp leads).2.2⟩
    next =>
      split at found
      next => cases found
      next => cases found

/-- A name in a folder is led to by the path of the folder with the name behind it. -/
theorem resolve_in {w : Workspace} {folder : String}
    (found : d.find (w.pathOf folder) = .ok (l, .folder)) (there : (l ++ [name], e) ∈ d.entries) :
    IsFileName name ∧ d.resolve (w.pathOf (folder ++ "/" ++ name)) = .ok (.named (l ++ [name])) := by
  have file := tree.names _ there name (by simp)
  have segments := w.segments_pathOf_of_name folder file.ne file.no_slash
  have onward := (tree.leadsToFolder_of_find found).follow_append file.isName
  refine ⟨file, resolve_eq_ok.mpr ⟨?_, by simp [Path.isEmpty, segments], ?_⟩⟩
  · rw [segments]
    intro segment mem
    rcases List.mem_append.mp mem with above | last
    · exact no_zero_of_find found segment above
    · rw [List.mem_singleton.mp last]
      exact file.no_zero
  · rw [segments, w.absolute_pathOf, ← w.absolute_pathOf folder]
    exact onward

/-- A folder in a folder is found in it. -/
theorem find_folder_in {w : Workspace} {folder : String}
    (found : d.find (w.pathOf folder) = .ok (l, .folder))
    (there : (l ++ [name], .folder) ∈ d.entries) :
    d.find (w.pathOf (folder ++ "/" ++ name)) = .ok (l ++ [name], .folder) := by
  have at_name := (tree.entry?_eq_some_iff (by simp)).mpr there
  rw [find, (tree.resolve_in found there).2]
  simp [at_name]

/-- A file in a folder is found in it. -/
theorem find_file_in {w : Workspace} {folder : String}
    (found : d.find (w.pathOf folder) = .ok (l, .folder))
    (there : (l ++ [name], .file content) ∈ d.entries) :
    d.find (w.pathOf (folder ++ "/" ++ name)) = .ok (l ++ [name], .file content) := by
  obtain ⟨file, leads⟩ := tree.resolve_in found there
  exact find_eq_ok_file.mpr ⟨leads, (tree.entry?_eq_some_iff (by simp)).mpr there,
    w.trailing_pathOf file.ne file.no_slash⟩

end WellFormed

end Disk

end ModelGrid.Store
