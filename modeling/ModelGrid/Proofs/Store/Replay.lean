import ModelGrid.Proofs.Store.Folder
import Mathlib.Data.Set.Insert

/-!
# Doing the same again

A run that is done again, on the disk that it left, meets its own folders and files.  Take the two runs
step by step: at each step the second run has, at the locations that were written so far, what the
first run had there, and elsewhere what the first run left in the end (`Disk.Replays`).  Once the first
run is at its end, this is the same thing everywhere.

## Main definitions

* `Disk.Leads`: a path leads to where a file is or may be put.
* `Disk.SameFolders`, `Disk.Grows`: what steps leave of folders and files.
* `Disk.Replaced`: a file was replaced by way of a temporary one.
* `Disk.Replays`: the invariant of the two runs.

## Main results

* `Workspace.save_eq_ok`, `Workspace.overwrite_eq_ok_iff`: what operations do, and when they succeed.
* `Replays.overwrite`, `Replays.save`: the two operations that write, done again.
-/

namespace ModelGrid.Store

namespace Disk

variable {K S : Set Location} {d d' d'' first first' second second' last : Disk} {l l' t x : Location}
  {p source target : Path} {content content' old : Content}

/-! ### Disks with the same folders -/

/-- The disks have the same folders. -/
structure SameFolders (d d' : Disk) : Prop where
  here : d'.here = d.here
  folder : ∀ l, d'.entry? l = some .folder ↔ d.entry? l = some .folder

namespace SameFolders

@[refl] theorem refl (d : Disk) : SameFolders d d := ⟨rfl, fun _ => Iff.rfl⟩

theorem symm (h : SameFolders d d') : SameFolders d' d :=
  ⟨h.here.symm, fun l => (h.folder l).symm⟩

theorem trans (h : SameFolders d d') (h' : SameFolders d' d'') : SameFolders d d'' :=
  ⟨h'.here.trans h.here, fun l => (h'.folder l).trans (h.folder l)⟩

/-- Nothing is said of files. -/
theorem changesWithin (h : SameFolders d d') : ChangesWithin .univ d d' :=
  ⟨h.here, fun l => (h.folder l).mpr, fun _ apart => absurd trivial apart,
    fun _ apart => absurd trivial apart⟩

theorem isFolder_eq (h : SameFolders d d') : d'.isFolder p = d.isFolder p := by
  rw [Bool.eq_iff_iff]
  exact ⟨h.symm.changesWithin.isFolder, h.changesWithin.isFolder⟩

end SameFolders

/-- The path leads to a location where a file is or may be put. -/
structure Leads (d : Disk) (p : Path) (l : Location) : Prop where
  resolve : d.resolve p = .ok (.named l)
  open_end : p.trailing = false
  free : d.entry? l ≠ some .folder

namespace Leads

theorem named (h : d.Leads p l) : l ≠ [] := ne_nil_of_entry?_ne h.free

theorem unique (h : d.Leads p l) (h' : d.Leads p l') : l = l' := by
  have both := h.resolve.symm.trans h'.resolve
  cases both
  rfl

theorem isFolder_eq_false (h : d.Leads p l) : d.isFolder p = false := by
  refine Bool.eq_false_iff.mpr fun there => ?_
  obtain ⟨l', leads | ⟨leads, folder⟩⟩ := isFolder_iff.mp there
  · have both := h.resolve.symm.trans leads
    cases both
  · have both := h.resolve.symm.trans leads
    cases both
    exact h.free folder

theorem of_changesWithin (h : d.Leads p l) (changes : ChangesWithin S d d')
    (free : d'.entry? l ≠ some .folder) : d'.Leads p l :=
  ⟨changes.resolve_eq h.resolve, h.open_end, free⟩

theorem of_sameFolders (h : d.Leads p l) (same : SameFolders d d') : d'.Leads p l :=
  h.of_changesWithin same.changesWithin fun folder => h.free ((same.folder l).mp folder)

end Leads

/-! ### Operations on files -/

theorem leads_of_find (found : d.find p = .ok (l, .file content)) : d.Leads p l := by
  obtain ⟨leads, there, open_end⟩ := find_eq_ok_file.mp found
  exact ⟨leads, open_end, by simp [there]⟩

theorem find_of_leads (h : d.Leads p l) (there : d.entry? l = some (.file content)) :
    d.find p = .ok (l, .file content) :=
  find_eq_ok_file.mpr ⟨h.resolve, there, h.open_end⟩

theorem sameFolders_put (free : d.entry? l ≠ some .folder) :
    SameFolders d (d.put l (.file content)) := by
  refine ⟨rfl, fun x => ?_⟩
  by_cases same : x = l
  · rw [same, entry?_put (ne_nil_of_entry?_ne free)]
    simp [free]
  · rw [entry?_put_of_ne same]

theorem sameFolders_erase (free : d.entry? l ≠ some .folder) : SameFolders d (d.erase l) := by
  refine ⟨rfl, fun x => ?_⟩
  by_cases same : x = l
  · rw [same, entry?_erase (ne_nil_of_entry?_ne free)]
    simp [free]
  · rw [entry?_erase_of_ne same]

theorem write_of_leads (h : d.Leads p l) : d.write p content = .ok (d.put l (.file content)) := by
  rw [write, h.resolve]
  dsimp only
  split
  next there => exact absurd there h.free
  next => simp [h.open_end]
  next => simp [h.open_end]

theorem write_eq_ok_iff : d.write p content = .ok d' ↔
    ∃ l, d.Leads p l ∧ d' = d.put l (.file content) := by
  constructor
  · intro written
    obtain ⟨l, leads, open_end, free, rfl⟩ := write_eq_ok written
    exact ⟨l, ⟨leads, open_end, free⟩, rfl⟩
  · rintro ⟨l, leads, rfl⟩
    exact write_of_leads leads

theorem remove_of_leads (h : d.Leads p l) (there : d.entry? l = some (.file old)) :
    d.remove p = .ok (d.erase l) := by
  simp [remove, h.resolve, there, h.open_end]

theorem rename_of_leads (h : d.Leads source t) (h' : d.Leads target l)
    (there : d.entry? t = some (.file content)) :
    d.rename source target = .ok ((d.erase t).put l (.file content)) := by
  rw [rename, h.resolve, h'.resolve]
  dsimp only
  rw [there]
  dsimp only
  rw [h.open_end, h'.open_end]
  simp only [Bool.or_self, Bool.false_eq_true, if_false]
  split
  next folder => exact absurd folder h'.free
  next => rfl

/-- The disk on which a file was written to a temporary location and then moved. -/
def replace (d : Disk) (t l : Location) (content : Content) : Disk :=
  ((d.put t (.file content)).erase t).put l (.file content)

/-- The disk without the file at a location. -/
def clear (d : Disk) (l : Location) : Disk :=
  match d.entry? l with
  | some (.file _) => d.erase l
  | _ => d

/-- What is put in the place of a file does not depend on it. -/
theorem put_erase (d : Disk) (l : Location) (entry : Entry) :
    (d.erase l).put l entry = d.put l entry := by
  simp [put, erase, List.filter_filter]

/-- A file was replaced, and there is no temporary one. -/
structure Replaced (t l : Location) (content : Content) (d d' : Disk) : Prop where
  here : d'.here = d.here
  file : d'.entry? l = some (.file content)
  temporary : d'.entry? t = none
  other : ∀ x, x ≠ t → x ≠ l → d'.entry? x = d.entry? x

theorem replaced_replace (temporary : d.Leads source t) (leads : d.Leads p l) (ne : t ≠ l) :
    Replaced t l content d (d.replace t l content) := by
  refine ⟨rfl, entry?_put leads.named, ?_, fun x apart apart' => ?_⟩
  · rw [replace, entry?_put_of_ne ne, entry?_erase temporary.named]
  · rw [replace, entry?_put_of_ne apart', entry?_erase_of_ne apart, entry?_put_of_ne apart]

theorem Replaced.sameFolders (h : Replaced t l content d d') (temporary : d.Leads source t)
    (leads : d.Leads p l) : SameFolders d d' := by
  refine ⟨h.here, fun x => ?_⟩
  by_cases at_file : x = l
  · rw [at_file, h.file]
    simp [leads.free]
  by_cases at_temporary : x = t
  · rw [at_temporary, h.temporary]
    simp [temporary.free]
  rw [h.other x at_temporary at_file]

/-- The temporary file is another one. -/
theorem ne_of_leads_append {text : String} (some_text : text ≠ "")
    (temporary : d.Leads (p.append text) t) (leads : d.Leads p l) : t ≠ l := by
  have t_name := getLast?_of_resolve temporary.resolve
  have l_name := getLast?_of_resolve leads.resolve
  rintro rfl
  rw [t_name] at l_name
  rw [Path.append] at l_name
  split at l_name
  next none_there =>
    rw [none_there] at l_name
    cases l_name
  next name found =>
    rw [leads.open_end] at l_name
    rw [found] at l_name
    have longer : name ++ text = name := by simpa using l_name
    have lengths := congrArg String.length longer
    rw [String.length_append] at lengths
    exact some_text (String.length_eq_zero_iff.mp (by omega))

/-! ### Two runs -/

/-- Folders stay folders and files stay files, whatever they hold. -/
structure Grows (d d' : Disk) : Prop where
  folders : ChangesWithin .univ d d'
  file : ∀ l content, d.entry? l = some (.file content) → ∃ content', d'.entry? l = some (.file content')

namespace Grows

@[refl] theorem refl (d : Disk) : Grows d d := ⟨.refl _ _, fun _ content there => ⟨content, there⟩⟩

theorem trans (h : Grows d d') (h' : Grows d' d'') : Grows d d'' := by
  refine ⟨h.folders.trans_same h'.folders, fun l content there => ?_⟩
  obtain ⟨content', there'⟩ := h.file l content there
  exact h'.file l content' there'

theorem put (leads : d.Leads p l) : Grows d (d.put l (.file content)) := by
  refine ⟨(sameFolders_put leads.free).changesWithin, fun x old there => ?_⟩
  by_cases same : x = l
  · exact ⟨content, by rw [same, entry?_put leads.named]⟩
  · exact ⟨old, by rw [entry?_put_of_ne same, there]⟩

theorem of_made (changes : ChangesWithin ∅ d d') : Grows d d' :=
  ⟨changes.mono (Set.empty_subset _),
    fun l content there => ⟨content, changes.entry l (Set.notMem_empty l) _ there⟩⟩

end Grows

/-- The disks of two runs after the same steps, where the second run began on the last disk of the first
one.  At the locations of `K`, which were written so far, the two agree; elsewhere the second one has
what is on the last disk. -/
structure Replays (K : Set Location) (last first second : Disk) : Prop where
  folders : SameFolders last second
  so_far : ∀ l ∈ K, second.entry? l = first.entry? l
  elsewhere : ∀ l ∉ K, second.entry? l = last.entry? l

namespace Replays

/-- The second run begins on the last disk. -/
theorem start (last first : Disk) : Replays ∅ last first last :=
  ⟨.refl _, fun l mem => absurd mem (Set.notMem_empty l), fun _ _ => rfl⟩

/-- **At the end** the second run has the files that it began with. -/
theorem entry?_eq (h : Replays K last last second) (l : Location) :
    second.entry? l = last.entry? l := by
  by_cases mem : l ∈ K
  · exact h.so_far l mem
  · exact h.elsewhere l mem

/-- The first run may make folders; the second run has them already. -/
theorem of_made (h : Replays K last first second) (changes : ChangesWithin ∅ first first')
    (later : ChangesWithin S first' last) : Replays K last first' second := by
  refine ⟨h.folders, fun l mem => ?_, h.elsewhere⟩
  rw [h.so_far l mem]
  cases there : first.entry? l with
  | some entry => rw [changes.entry l (Set.notMem_empty l) entry there]
  | none =>
    rcases changes.made l (Set.notMem_empty l) there with free | made
    · rw [free]
    · have in_second := (h.folders.folder l).mpr (later.folder l made)
      rw [h.so_far l mem, there] at in_second
      cases in_second

theorem put (h : Replays K last first second) (named : l ≠ [])
    (free : second.entry? l ≠ some .folder) :
    Replays (insert l K) last (first.put l (.file content)) (second.put l (.file content)) := by
  refine ⟨h.folders.trans (sameFolders_put free), fun x mem => ?_, fun x apart => ?_⟩
  · by_cases same : x = l
    · rw [same, entry?_put named, entry?_put named]
    · rw [entry?_put_of_ne same, entry?_put_of_ne same]
      exact h.so_far x (Set.mem_of_mem_insert_of_ne mem same)
  · have ne : x ≠ l := fun same => apart (same ▸ Set.mem_insert l K)
    rw [entry?_put_of_ne ne]
    exact h.elsewhere x fun mem => apart (Set.mem_insert_of_mem l mem)

/-- Both runs replace a file by the same. -/
theorem replaced (h : Replays K last first second) (one : Replaced t l content first first')
    (two : Replaced t l content second second') (same : SameFolders second second') :
    Replays (insert t (insert l K)) last first' second' := by
  refine ⟨h.folders.trans same, fun x mem => ?_, fun x apart => ?_⟩
  · by_cases at_temporary : x = t
    · rw [at_temporary, one.temporary, two.temporary]
    by_cases at_file : x = l
    · rw [at_file, one.file, two.file]
    rw [one.other x at_temporary at_file, two.other x at_temporary at_file]
    exact h.so_far x (Set.mem_of_mem_insert_of_ne (Set.mem_of_mem_insert_of_ne mem at_temporary) at_file)
  · simp only [Set.mem_insert_iff, not_or] at apart
    rw [two.other x apart.1 apart.2.1]
    exact h.elsewhere x apart.2.2

end Replays

end Disk

namespace Workspace

open Disk Store.Action

variable {w : Workspace} {d d' : Disk} {path text : String} {s : Edit.Session} {l t : Location}

/-! ### Paths that lead to files -/

/-- A path that leads to a file has a last segment. -/
theorem exists_segments_of_leads (leads : d.Leads (w.pathOf path) l) :
    ∃ front name, (w.pathOf path).segments = front ++ [name] := by
  refine (w.pathOf path).segments.eq_nil_or_concat'.resolve_left fun none_there => ?_
  have on := (resolve_eq_ok.mp leads.resolve).2.2
  rw [none_there] at on
  cases on

/-- The folder of a file is there if the path of the file leads to it. -/
theorem hasParent_of_leads (leads : d.Leads (w.pathOf path) l) : w.HasParent d path := by
  obtain ⟨front, name, segments⟩ := exists_segments_of_leads leads
  obtain ⟨no_zero, _, on⟩ := resolve_eq_ok.mp leads.resolve
  rw [segments] at no_zero on
  rw [absolute_pathOf] at on
  obtain ⟨_, _, is_name, _⟩ := exists_leadsToFolder_of_follow_concat on
  exact hasParent_of_follow segments is_name.1
    (fun segment mem => no_zero segment (List.mem_append_left _ mem)) (by simp) on

/-! ### Operations of a workspace -/

/-- **Saving a session** succeeds if and only if its file may be replaced. -/
theorem save_eq_ok : (w.save s).on d = (.ok (), d') ↔
    ∃ t l, d.Leads ((w.pathOf s.path).append temporarySuffix) t ∧ d.Leads (w.pathOf s.path) l ∧
      d' = d.replace t l (.text s.apply) := by
  constructor
  · intro run
    obtain ⟨⟨⟩, mid, writing, run⟩ := on_bind_eq_ok.mp run
    obtain ⟨t, temporary, rfl⟩ := write_eq_ok_iff.mp (change_eq_ok.mp writing)
    rw [on_get_bind] at run
    split at run
    next after done =>
      cases run
      obtain ⟨old, l, content, found, leads, open_end, free, rfl⟩ := rename_eq_ok done
      have same : SameFolders d (d.put t (.file (.text s.apply))) := sameFolders_put temporary.free
      obtain rfl := (leads_of_find found).unique (temporary.of_sameFolders same)
      have there := (find_eq_ok_file.mp found).2.1
      rw [entry?_put temporary.named] at there
      cases there
      exact ⟨old, l, temporary, Leads.of_sameFolders ⟨leads, open_end, free⟩ same.symm, rfl⟩
    next =>
      obtain ⟨_, _, _, run⟩ := on_bind_eq_ok.mp run
      cases run
  · rintro ⟨t, l, temporary, leads, rfl⟩
    have same : SameFolders d (d.put t (.file (.text s.apply))) := sameFolders_put temporary.free
    refine on_bind_eq_ok.mpr ⟨(), _, change_eq_ok.mpr (write_of_leads temporary), ?_⟩
    rw [on_get_bind, rename_of_leads (temporary.of_sameFolders same) (leads.of_sameFolders same)
      (entry?_put temporary.named)]
    rfl

theorem temporarySuffix_ne : temporarySuffix ≠ "" := by
  decide

/-- A session that is saved replaces its file. -/
theorem replaced_of_save (run : (w.save s).on d = (.ok (), d')) :
    ∃ t l, d.Leads ((w.pathOf s.path).append temporarySuffix) t ∧ d.Leads (w.pathOf s.path) l ∧
      t ≠ l ∧ Replaced t l (.text s.apply) d d' ∧ SameFolders d d' := by
  obtain ⟨t, l, temporary, leads, rfl⟩ := save_eq_ok.mp run
  have ne := ne_of_leads_append temporarySuffix_ne temporary leads
  have replaced : Replaced t l (.text s.apply) d (d.replace t l (.text s.apply)) :=
    replaced_replace temporary leads ne
  exact ⟨t, l, temporary, leads, ne, replaced, replaced.sameFolders temporary leads⟩

/-- **Writing a file** succeeds if and only if the folders that lead to it can be made, and the path
then leads to where a file may be put. -/
theorem overwrite_eq_ok_iff : (w.overwrite path text).on d = (.ok (), d') ↔
    ∃ made l, w.MakesWay path d made ∧ made.Leads (w.pathOf path) l ∧
      d' = made.put l (.file (.text text)) := by
  unfold overwrite
  dsimp only
  cases found : (w.pathOf path).parent? with
  | none =>
    simp only [makesWay_of_no_parent found, exists_and_left, exists_eq_left]
    exact change_eq_ok.trans write_eq_ok_iff
  | some parent =>
    simp only [makesWay_of_parent found]
    rw [on_get_bind]
    constructor
    · intro run
      obtain ⟨⟨⟩, _, setting, run⟩ := on_bind_eq_ok.mp run
      cases setting
      split at run
      next =>
        obtain ⟨_, _, throwing, _⟩ := on_bind_eq_ok.mp run
        cases throwing
      next no_fault =>
        obtain ⟨l, leads, rfl⟩ := write_eq_ok_iff.mp (change_eq_ok.mp run)
        refine ⟨_, l, eq_mk_of_fst_eq ?_, leads, rfl⟩
        cases result : (createFolders parent d).1 with
        | ok _ => rfl
        | error fault => exact absurd result (no_fault fault)
    · rintro ⟨made, l, made_ok, leads, rfl⟩
      rw [made_ok]
      refine on_bind_eq_ok.mpr ⟨(), made, rfl, ?_⟩
      exact change_eq_ok.mpr (write_of_leads leads)

/-- Whether there is a file where the path leads. -/
theorem hasFile_iff (leads : d.Leads (w.pathOf path) l) :
    w.hasFile path d = true ↔ ∃ content, d.entry? l = some (.file content) := by
  rw [hasFile, isFile]
  constructor
  · intro there
    split at there
    next l' content found =>
      obtain rfl := leads.unique (leads_of_find found)
      exact ⟨content, (find_eq_ok_file.mp found).2.1⟩
    next => cases there
  · rintro ⟨content, there⟩
    rw [find_of_leads leads there]

theorem create_eq_ok_iff : (w.create path text).on d = (.ok (), d') ↔
    w.hasFile path d = false ∧ ∃ made l, w.MakesWay path d made ∧ made.Leads (w.pathOf path) l ∧
      d' = made.put l (.file (.text text)) := by
  unfold create
  rw [on_get_bind, ← overwrite_eq_ok_iff]
  cases there : w.hasFile path d with
  | true =>
    constructor
    · intro run
      obtain ⟨_, _, throwing, _⟩ := on_bind_eq_ok.mp run
      cases throwing
    · rintro ⟨impossible, _⟩
      cases impossible
  | false =>
    rw [if_neg Bool.false_ne_true]
    exact ⟨fun run => ⟨rfl, run⟩, fun run => run.2⟩

/-- A file that is there is taken away. -/
theorem delete_eq_ok_iff : (w.delete path).on d = (.ok (), d') ↔
    ∃ l content, d.Leads (w.pathOf path) l ∧ d.entry? l = some (.file content) ∧ d' = d.erase l := by
  rw [delete, change_eq_ok]
  constructor
  · intro removed
    obtain ⟨l, content, found, rfl⟩ := remove_eq_ok removed
    exact ⟨l, content, leads_of_find found, (find_eq_ok_file.mp found).2.1, rfl⟩
  · rintro ⟨l, content, leads, there, rfl⟩
    exact remove_of_leads leads there

end Workspace

namespace Disk.Replays

open Store.Action

variable {w : Workspace} {K : Set Location} {first first' second written last : Disk}
  {path text : String} {s : Edit.Session} {l : Location}

/-! ### Operations done again -/

/-- **Reading a file** that was written so far. -/
theorem holds (h : Replays K last first second) (same : SameFolders first last)
    (leads : last.Leads (w.pathOf path) l) (mem : l ∈ K) (held : w.Holds first path text) :
    w.Holds second path text := by
  obtain ⟨l', found⟩ := held
  obtain rfl := leads.unique ((leads_of_find found).of_sameFolders same)
  have there := (find_eq_ok_file.mp found).2.1
  exact ⟨l, find_of_leads (leads.of_sameFolders h.folders) ((h.so_far l mem).trans there)⟩

/-- **Writing a file** is done again.  The first run may make folders for it. -/
theorem overwrite (h : Replays K last first second)
    (run : (w.overwrite path text).on first = (.ok (), first')) (grows : Grows first' written)
    (same : SameFolders written last) :
    ∃ l second', (w.overwrite path text).on second = (.ok (), second') ∧
      Replays (insert l K) last first' second' ∧ last.Leads (w.pathOf path) l ∧
      w.HasParent last path := by
  obtain ⟨made, l, way, leads, rfl⟩ := Workspace.overwrite_eq_ok_iff.mp run
  have putting : Grows made (made.put l (.file (.text text))) := .put leads
  have later := (putting.folders.trans_same grows.folders).trans_same same.changesWithin
  obtain ⟨content, there⟩ := grows.file l _ (entry?_put leads.named)
  have in_written : written.Leads (w.pathOf path) l :=
    leads.of_changesWithin (putting.folders.trans_same grows.folders) (by simp [there])
  have in_last := in_written.of_sameFolders same
  have in_second := in_last.of_sameFolders h.folders
  have parent_last := way.hasParent.of_changesWithin later
  have parent_second := parent_last.of_changesWithin h.folders.changesWithin
  refine ⟨l, _, Workspace.overwrite_eq_ok_iff.mpr ⟨_, l, parent_second.makesWay, in_second, rfl⟩, ?_,
    in_last, parent_last⟩
  exact (h.of_made way.changesWithin later).put leads.named in_second.free

/-- **Saving a session** is done again. -/
theorem save (h : Replays K last first second) (same : SameFolders first last)
    (run : (w.save s).on first = (.ok (), first')) :
    ∃ t l second', (w.save s).on second = (.ok (), second') ∧
      Replays (insert t (insert l K)) last first' second' := by
  obtain ⟨t, l, temporary, leads, ne, replaced, _⟩ := Workspace.replaced_of_save run
  have both := same.trans h.folders
  have again := Workspace.save_eq_ok.mpr ⟨t, l, temporary.of_sameFolders both, leads.of_sameFolders both, rfl⟩
  have replaced' : Replaced t l (.text s.apply) second (second.replace t l (.text s.apply)) :=
    replaced_replace (temporary.of_sameFolders both) (leads.of_sameFolders both) ne
  exact ⟨t, l, _, again, h.replaced replaced replaced'
    (replaced'.sameFolders (temporary.of_sameFolders both) (leads.of_sameFolders both))⟩

end Disk.Replays

end ModelGrid.Store
