import ModelGrid.Store.Disk
import Mathlib.Data.Set.Basic

/-!
# What operations leave in place

An operation changes the files at one or two locations and may make folders; all else on the disk
stays.  Paths are followed through folders only, so that what stays includes the way to it: a path
that leads somewhere before an operation leads there afterwards (`ChangesWithin.resolve_eq`), whatever
was done to files.

## Main definitions

* `Disk.ChangesWithin S`: between two disks all stays, apart from files at locations in `S`.

## Main results

* `ChangesWithin.resolve_eq`, `ChangesWithin.find_eq`: paths lead where they led, to what they led to.
* `find_of_write`, `find_of_remove`, `find_of_rename`, `changesWithin_createFolders`: what operations
  do that succeed.
-/

namespace ModelGrid.Store

namespace Disk

variable {S T : Set Location} {d d' d'' : Disk} {l l' : Location} {e : Entry}

/-! ### Entries -/

@[simp] theorem entry?_nil (d : Disk) : d.entry? [] = some .folder := rfl

theorem entry?_of_ne_nil (named : l ≠ []) :
    d.entry? l = (d.entries.find? fun entry => entry.1 == l).map Prod.snd :=
  if_neg named

/-- A file has a name. -/
theorem ne_nil_of_entry?_ne (h : d.entry? l ≠ some .folder) : l ≠ [] := by
  rintro rfl
  exact h rfl

theorem entry?_put (named : l ≠ []) : entry? (d.put l e) l = some e := by
  simp [entry?_of_ne_nil named, put]

/-- What is searched for elsewhere is not among what is taken away. -/
theorem find?_filter_of_ne (entries : List (Location × Entry)) (ne : l' ≠ l) :
    (entries.filter fun old => old.1 != l).find? (fun entry => entry.1 == l') =
      entries.find? fun entry => entry.1 == l' := by
  rw [List.find?_filter]
  congr 1
  funext entry
  by_cases here : entry.1 = l'
  · simp [here, ne]
  · simp [here]

theorem entry?_put_of_ne (ne : l' ≠ l) : entry? (d.put l e) l' = d.entry? l' := by
  by_cases named : l' = []
  · rw [named, entry?_nil, entry?_nil]
  have other : (l == l') = false := by simpa using Ne.symm ne
  rw [entry?_of_ne_nil named, entry?_of_ne_nil named, put, List.find?_cons, other]
  exact congrArg (Option.map Prod.snd) (find?_filter_of_ne d.entries ne)

theorem entry?_erase (named : l ≠ []) : entry? (d.erase l) l = none := by
  simp [entry?_of_ne_nil named, erase]

theorem entry?_erase_of_ne (ne : l' ≠ l) : entry? (d.erase l) l' = d.entry? l' := by
  by_cases named : l' = []
  · rw [named, entry?_nil, entry?_nil]
  rw [entry?_of_ne_nil named, entry?_of_ne_nil named, erase, find?_filter_of_ne d.entries ne]

/-! ### Paths, segment by segment -/

/-- The segment is a name that something may have. -/
def IsName (segment : String) : Prop :=
  segment ≠ "." ∧ segment ≠ ".." ∧ segment.utf8ByteSize ≤ nameLimit

/-- Where a path leads that begins with a segment. -/
theorem follow_cons_eq_ok {segment : String} {rest : List String} {target : Target} :
    d.follow l (segment :: rest) = .ok target ↔
      d.entry? l = some .folder ∧
        (segment = "." ∧ d.follow l rest = .ok target ∨
          segment = ".." ∧ d.follow l.dropLast rest = .ok target ∨
          IsName segment ∧
            (rest = [] ∧ target = .named (l ++ [segment]) ∨
              rest ≠ [] ∧ d.follow (l ++ [segment]) rest = .ok target)) := by
  rw [follow.eq_def]
  dsimp only
  cases there : d.entry? l with
  | none => simp
  | some found =>
    cases found with
    | file content => simp
    | folder =>
      by_cases here : segment = "."
      · simp [here, IsName]
      by_cases up : segment = ".."
      · simp [up, IsName]
      by_cases long : segment.utf8ByteSize > nameLimit
      · simp [here, up, long, IsName]
      cases rest with
      | nil => simp [here, up, long, IsName, Nat.le_of_not_lt long, eq_comm (a := target)]
      | cons next rest => simp [here, up, long, IsName, Nat.le_of_not_lt long]

/-- Where a path leads. -/
theorem resolve_eq_ok {p : Path} {target : Target} :
    d.resolve p = .ok target ↔
      (∀ segment ∈ p.segments, '\x00' ∉ segment.toList) ∧ p.isEmpty = false ∧
        d.follow (if p.absolute then [] else d.here) p.segments = .ok target := by
  rw [resolve]
  split
  next zero =>
    obtain ⟨segment, mem, has⟩ := List.any_eq_true.mp zero
    have within : '\x00' ∈ segment.toList := by simpa using has
    constructor
    · intro leads
      cases leads
    · rintro ⟨no_zero, _⟩
      exact absurd within (no_zero segment mem)
  next no_zero =>
    have no_zero' : ∀ segment ∈ p.segments, '\x00' ∉ segment.toList := by simpa using no_zero
    split
    next nothing => simp [nothing]
    next something =>
      exact ⟨fun leads => ⟨no_zero', Bool.eq_false_iff.mpr something, leads⟩, fun whole => whole.2.2⟩

/-! ### Changes -/

/-- All that is on the first disk is on the second one, apart from files at locations in `S`.  There
may be more folders on the second one. -/
structure ChangesWithin (S : Set Location) (before after : Disk) : Prop where
  here : after.here = before.here
  folder : ∀ l, before.entry? l = some .folder → after.entry? l = some .folder
  entry : ∀ l ∉ S, ∀ e, before.entry? l = some e → after.entry? l = some e
  made : ∀ l ∉ S, before.entry? l = none → after.entry? l = none ∨ after.entry? l = some .folder

namespace ChangesWithin

@[refl] theorem refl (S : Set Location) (d : Disk) : ChangesWithin S d d :=
  ⟨rfl, fun _ there => there, fun _ _ _ there => there, fun _ _ free => .inl free⟩

theorem mono (sub : S ⊆ T) (h : ChangesWithin S d d') : ChangesWithin T d d' :=
  ⟨h.here, h.folder, fun l apart => h.entry l fun mem => apart (sub mem),
    fun l apart => h.made l fun mem => apart (sub mem)⟩

theorem trans (h : ChangesWithin S d d') (h' : ChangesWithin T d' d'') :
    ChangesWithin (S ∪ T) d d'' := by
  refine ⟨h'.here.trans h.here, fun l there => h'.folder l (h.folder l there), ?_, ?_⟩
  · intro l apart e there
    have first := h.entry l (fun mem => apart (Or.inl mem)) e there
    exact h'.entry l (fun mem => apart (Or.inr mem)) e first
  · intro l apart free
    rcases h.made l (fun mem => apart (Or.inl mem)) free with still_free | made
    · exact h'.made l (fun mem => apart (Or.inr mem)) still_free
    · exact .inr (h'.folder l made)

theorem trans_same (h : ChangesWithin S d d') (h' : ChangesWithin S d' d'') :
    ChangesWithin S d d'' := by
  simpa using h.trans h'

theorem follow_eq (h : ChangesWithin S d d') {segments : List String} {target : Target}
    (leads : d.follow l segments = .ok target) : d'.follow l segments = .ok target := by
  induction segments generalizing l with
  | nil => exact leads
  | cons segment rest ih =>
    obtain ⟨there, step⟩ := follow_cons_eq_ok.mp leads
    refine follow_cons_eq_ok.mpr ⟨h.folder l there, ?_⟩
    rcases step with ⟨here, leads⟩ | ⟨up, leads⟩ | ⟨name, last | ⟨more, leads⟩⟩
    · exact .inl ⟨here, ih leads⟩
    · exact .inr (.inl ⟨up, ih leads⟩)
    · exact .inr (.inr ⟨name, .inl last⟩)
    · exact .inr (.inr ⟨name, .inr ⟨more, ih leads⟩⟩)

/-- **A path leads where it led.** -/
theorem resolve_eq (h : ChangesWithin S d d') {p : Path} {target : Target}
    (leads : d.resolve p = .ok target) : d'.resolve p = .ok target := by
  obtain ⟨no_zero, something, leads⟩ := resolve_eq_ok.mp leads
  refine resolve_eq_ok.mpr ⟨no_zero, something, ?_⟩
  rw [h.here]
  exact h.follow_eq leads

end ChangesWithin

theorem find_eq_ok_file {p : Path} {content : Content} :
    d.find p = .ok (l, .file content) ↔
      d.resolve p = .ok (.named l) ∧ d.entry? l = some (.file content) ∧ p.trailing = false := by
  rw [find]
  constructor
  · intro found
    split at found
    next => cases found
    next => cases found
    next named =>
      split at found
      next => cases found
      next => cases found
      next there =>
        split at found
        next => cases found
        next open_end =>
          cases found
          exact ⟨named, there, by simpa using open_end⟩
  · rintro ⟨named, there, open_end⟩
    simp [named, there, open_end]

/-- Where there is no folder in the end, nothing has changed. -/
theorem ChangesWithin.entry?_eq (h : ChangesWithin S d d') (apart : l ∉ S)
    (no_folder : d'.entry? l ≠ some .folder) : d'.entry? l = d.entry? l := by
  cases before : d.entry? l with
  | some e => exact h.entry l apart e before
  | none => exact (h.made l apart before).resolve_right no_folder

/-- A path leads to the file that it led to. -/
theorem ChangesWithin.find_eq (h : ChangesWithin S d d') {p : Path} {content : Content}
    (found : d.find p = .ok (l, .file content)) (apart : l ∉ S) :
    d'.find p = .ok (l, .file content) := by
  obtain ⟨named, there, open_end⟩ := find_eq_ok_file.mp found
  exact find_eq_ok_file.mpr ⟨h.resolve_eq named, h.entry l apart _ there, open_end⟩

theorem changesWithin_put (free : d.entry? l ≠ some .folder) :
    ChangesWithin {l} d (d.put l e) := by
  refine ⟨rfl, fun l' there => ?_, fun l' apart e' there => ?_, fun l' apart free' => ?_⟩
  · have ne : l' ≠ l := by
      rintro rfl
      exact free there
    rw [entry?_put_of_ne ne, there]
  · rw [entry?_put_of_ne apart, there]
  · rw [entry?_put_of_ne apart, free']
    exact .inl rfl

theorem changesWithin_put_of_none (free : d.entry? l = none) :
    ChangesWithin ∅ d (d.put l .folder) := by
  have put := changesWithin_put (e := .folder) (by simp [free] : d.entry? l ≠ some .folder)
  refine ⟨put.here, put.folder, fun l' _ e' there => put.entry l' ?_ e' there, fun l' _ free' => ?_⟩
  · rintro rfl
    rw [free] at there
    cases there
  · by_cases same : l' = l
    · have named : l ≠ [] := ne_nil_of_entry?_ne (d := d) (by simp [free])
      rw [same, entry?_put named]
      exact .inr rfl
    · exact put.made l' same free'

theorem changesWithin_erase (free : d.entry? l ≠ some .folder) :
    ChangesWithin {l} d (d.erase l) := by
  refine ⟨rfl, fun l' there => ?_, fun l' apart e' there => ?_, fun l' apart free' => ?_⟩
  · have ne : l' ≠ l := by
      rintro rfl
      exact free there
    rw [entry?_erase_of_ne ne, there]
  · rw [entry?_erase_of_ne apart, there]
  · rw [entry?_erase_of_ne apart, free']
    exact .inl rfl

/-! ### Names -/

/-- Where a path leads to a name, that is the path's last segment. -/
theorem getLast?_of_follow {segments : List String} (leads : d.follow l segments = .ok (.named l')) :
    l'.getLast? = segments.getLast? := by
  induction segments generalizing l with
  | nil => cases leads
  | cons segment rest ih =>
    have later {start : Location} (leads : d.follow start rest = .ok (.named l')) :
        l'.getLast? = (segment :: rest).getLast? := by
      cases rest with
      | nil => cases leads
      | cons next rest => rw [ih leads, List.getLast?_cons_cons]
    obtain ⟨-, ⟨-, leads⟩ | ⟨-, leads⟩ | ⟨-, ⟨rfl, named⟩ | ⟨-, leads⟩⟩⟩ := follow_cons_eq_ok.mp leads
    · exact later leads
    · exact later leads
    · cases named
      simp
    · exact later leads

theorem getLast?_of_resolve {p : Path} (leads : d.resolve p = .ok (.named l)) :
    l.getLast? = p.segments.getLast? := getLast?_of_follow (resolve_eq_ok.mp leads).2.2

/-! ### Operations -/

variable {p source target : Path} {content : Content}

/-- A file that is written is put where the path leads. -/
theorem write_eq_ok (h : d.write p content = .ok d') :
    ∃ l, d.resolve p = .ok (.named l) ∧ p.trailing = false ∧ d.entry? l ≠ some .folder ∧
      d' = d.put l (.file content) := by
  rw [write] at h
  split at h
  next => cases h
  next => cases h
  next l leads =>
    split at h
    next => cases h
    next there =>
      split at h
      next => cases h
      next open_end =>
        cases h
        exact ⟨l, leads, by simpa using open_end, by simp [there], rfl⟩
    next free =>
      split at h
      next => cases h
      next open_end =>
        cases h
        exact ⟨l, leads, by simpa using open_end, by simp [free], rfl⟩

/-- A file that is removed is gone from where the path leads. -/
theorem remove_eq_ok (h : d.remove p = .ok d') :
    ∃ l old, d.find p = .ok (l, .file old) ∧ d' = d.erase l := by
  rw [remove] at h
  split at h
  next => cases h
  next => cases h
  next l leads =>
    split at h
    next => cases h
    next => cases h
    next old there =>
      split at h
      next => cases h
      next open_end =>
        cases h
        exact ⟨l, old, find_eq_ok_file.mpr ⟨leads, there, by simpa using open_end⟩, rfl⟩

/-- A file that is moved is gone from where its path leads, and is where the other path leads. -/
theorem rename_eq_ok (h : d.rename source target = .ok d') :
    ∃ old new content, d.find source = .ok (old, .file content) ∧
      d.resolve target = .ok (.named new) ∧ target.trailing = false ∧
      d.entry? new ≠ some .folder ∧ d' = (d.erase old).put new (.file content) := by
  rw [rename] at h
  split at h
  next => cases h
  next => cases h
  next => cases h
  next => cases h
  next old new leads leads' =>
    split at h
    next => cases h
    next => cases h
    next content there =>
      split at h
      next => cases h
      next open_ends =>
        obtain ⟨open_end, open_end'⟩ : source.trailing = false ∧ target.trailing = false := by
          simpa using open_ends
        split at h
        next => cases h
        next free =>
          cases h
          refine ⟨old, new, content, find_eq_ok_file.mpr ⟨leads, there, open_end⟩, leads', open_end',
            ?_, rfl⟩
          intro folder
          exact free folder

/-- **Writing a file** puts it where the path leads, and changes nothing else. -/
theorem find_of_write (h : d.write p content = .ok d') :
    ∃ l, d'.find p = .ok (l, .file content) ∧ ChangesWithin {l} d d' := by
  obtain ⟨l, leads, open_end, free, rfl⟩ := write_eq_ok h
  have changes : ChangesWithin {l} d (d.put l (.file content)) := changesWithin_put free
  have there := entry?_put (d := d) (e := .file content) (ne_nil_of_entry?_ne free)
  exact ⟨l, find_eq_ok_file.mpr ⟨changes.resolve_eq leads, there, open_end⟩, changes⟩

/-- **Removing a file** changes nothing else. -/
theorem find_of_remove (h : d.remove p = .ok d') :
    ∃ l old, d.find p = .ok (l, .file old) ∧ ChangesWithin {l} d d' := by
  obtain ⟨l, old, found, rfl⟩ := remove_eq_ok h
  have there := (find_eq_ok_file.mp found).2.1
  exact ⟨l, old, found, changesWithin_erase (by simp [there])⟩

/-- **Moving a file** puts it where the other path leads, and changes nothing else. -/
theorem find_of_rename (h : d.rename source target = .ok d') :
    ∃ old new content, d.find source = .ok (old, .file content) ∧
      d'.find target = .ok (new, .file content) ∧ ChangesWithin {old, new} d d' := by
  obtain ⟨old, new, content, found, leads, open_end, free, rfl⟩ := rename_eq_ok h
  have there := (find_eq_ok_file.mp found).2.1
  have erased : ChangesWithin {old} d (d.erase old) := changesWithin_erase (by simp [there])
  have free' : entry? (d.erase old) new ≠ some .folder := by
    by_cases same : new = old
    · rw [same, entry?_erase (ne_nil_of_entry?_ne (same ▸ free))]
      nofun
    · rwa [entry?_erase_of_ne same]
  have put : ChangesWithin {new} (d.erase old) ((d.erase old).put new (.file content)) :=
    changesWithin_put free'
  have changes := erased.trans put
  refine ⟨old, new, content, found, ?_, changes⟩
  exact find_eq_ok_file.mpr
    ⟨changes.resolve_eq leads, entry?_put (ne_nil_of_entry?_ne free), open_end⟩

/-- A folder is made where nothing is. -/
theorem createFolder_eq_ok : d.createFolder p = .ok d' ↔
    ∃ l, d.resolve p = .ok (.named l) ∧ d.entry? l = none ∧ d' = d.put l .folder := by
  rw [createFolder]
  constructor
  · intro made
    split at made
    next => cases made
    next => cases made
    next l leads =>
      split at made
      next => cases made
      next free =>
        cases made
        exact ⟨l, leads, free, rfl⟩
  · rintro ⟨l, leads, free, rfl⟩
    simp [leads, free]

theorem changesWithin_createFolder (h : d.createFolder p = .ok d') : ChangesWithin ∅ d d' := by
  obtain ⟨l, _, free, rfl⟩ := createFolder_eq_ok.mp h
  exact changesWithin_put_of_none free

/-- Folders are made one by one: what each of them keeps is kept. -/
theorem createFoldersUpTo_keeps {P : Disk → Prop}
    (step : ∀ {p d d'}, P d → d.createFolder p = .ok d' → P d') (fuel : Nat) (p : Path) (h : P d) :
    P (createFoldersUpTo fuel p d).2 := by
  induction fuel generalizing p with
  | zero => exact h
  | succ fuel ih =>
    rw [createFoldersUpTo]
    split
    next => exact h
    next =>
      split
      next made => exact step h made
      next =>
        split
        next => exact h
        next parent _ =>
          have above := ih parent
          split
          next result =>
            rw [result] at above
            exact above
          next after result =>
            rw [result] at above
            split
            next made => exact step above made
            next =>
              split
              next => exact above
              next => exact above
      next =>
        split
        next => exact h
        next => exact h

/-- Making folders changes no file. -/
theorem changesWithin_createFolders (p : Path) (d : Disk) :
    ChangesWithin ∅ d (d.createFolders p).2 :=
  createFoldersUpTo_keeps (P := ChangesWithin ∅ d)
    (fun so_far made => so_far.trans_same (changesWithin_createFolder made)) _ p (.refl ∅ d)

end Disk

end ModelGrid.Store
