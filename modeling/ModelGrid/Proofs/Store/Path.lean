import ModelGrid.Proofs.Store.Workspace
import ModelGrid.Proofs.Text.Line
import Mathlib.Data.List.DropRight

/-!
# The names that paths end in

The path of a file in a folder ends in the name of the file, however the path of the folder is
written.  Paths that end in different names lead to different locations, on whatever disks.

## Main results

* `Workspace.segments_pathOf_in`: the segments of a path in a folder.
* `Path.exists_getLast?_append`: a path with a text behind it ends in that text.
* `Workspace.getLast?_pathOf`: the name that the path of a file ends in.
* `Workspace.Holds.of_changesWithin`: a file is not changed by what is done to files of other names.
-/

namespace ModelGrid.Store

namespace Path

theorem segmentsOf_of_not_mem {file : List Char} (ne : file ≠ []) (no_slash : '/' ∉ file) :
    segmentsOf file = [file] := by
  simp [segmentsOf, Text.splitOn_of_not_mem no_slash, ne]

theorem segmentsOf_dropLeading (cs : List Char) :
    segmentsOf (Text.dropLeading '/' cs) = segmentsOf cs := by
  induction cs with
  | nil => rfl
  | cons c cs ih =>
    by_cases slash : c = '/'
    · subst slash
      have dropped : Text.dropLeading '/' ('/' :: cs) = Text.dropLeading '/' cs := by
        simp [Text.dropLeading]
      rw [dropped, ih]
      simp [segmentsOf, Text.splitOn]
    · simp [Text.dropLeading, slash]

theorem segmentsOf_dropTrailing (cs : List Char) :
    segmentsOf (Text.dropTrailing '/' cs) = segmentsOf cs := by
  induction cs using List.reverseRecOn with
  | nil => rfl
  | append_singleton cs c ih =>
    by_cases slash : c = '/'
    · subst slash
      have dropped : Text.dropTrailing '/' (cs ++ ['/']) = Text.dropTrailing '/' cs :=
        List.rdropWhile_concat_pos _ _ _ rfl
      rw [dropped, ih, segmentsOf, segmentsOf, Text.splitOn_append]
      simp [Text.splitOn]
    · have kept : Text.dropTrailing '/' (cs ++ [c]) = cs ++ [c] :=
        List.rdropWhile_concat_neg _ _ _ (by simpa using slash)
      rw [kept]

theorem segmentsOf_ne_nil {cs : List Char} {c : Char} (mem : c ∈ cs) (ne : c ≠ '/') :
    segmentsOf cs ≠ [] := by
  induction cs with
  | nil => cases mem
  | cons x cs ih =>
    by_cases slash : x = '/'
    · subst slash
      have later := ih ((List.mem_cons.mp mem).resolve_left ne)
      simpa [segmentsOf, Text.splitOn] using later
    · rw [segmentsOf, Text.splitOn, if_neg (by simpa using slash)]
      split
      next => simp
      next => simp

/-- A path with a text behind it ends in that text. -/
theorem exists_getLast?_append (p : Path) (text : String) :
    ∃ front, (p.append text).segments.getLast? = some (front ++ text) := by
  rw [append]
  split
  next => exact ⟨"", by simp⟩
  next last found =>
    split
    next => exact ⟨"", by simp⟩
    next => exact ⟨last, by simp⟩

end Path

open Disk

namespace Workspace

variable {w : Workspace} {d d' : Disk} {path text : String} {S : Set Location}

theorem segments_pathOf (w : Workspace) (path : String) :
    (w.pathOf path).segments =
      w.root.segments ++ (Path.segmentsOf path.toList).map String.ofList := by
  rw [pathOf, Path.join, Path.ofString]
  dsimp only
  rw [String.toList_ofList, Path.segmentsOf_dropLeading]
  split
  next none_left => simp [List.isEmpty_iff.mp none_left]
  next => rfl

theorem absolute_pathOf (w : Workspace) (path : String) :
    (w.pathOf path).absolute = w.root.absolute := by
  rw [pathOf, Path.join]
  split
  next => rfl
  next => rfl

/-- The segments of a path in a folder. -/
theorem segments_pathOf_in (w : Workspace) (folder name : String) :
    (w.pathOf (folder ++ "/" ++ name)).segments =
      (w.pathOf folder).segments ++ (Path.segmentsOf name.toList).map String.ofList := by
  have slash : "/".toList = ['/'] := by simp
  rw [segments_pathOf, segments_pathOf, String.toList_append, String.toList_append, slash,
    List.append_assoc, List.singleton_append, Path.segmentsOf, Text.splitOn_append, List.filter_append,
    List.map_append, List.append_assoc]
  rfl

theorem segments_pathOf_of_name (w : Workspace) (folder : String) {file : String}
    (ne : file.toList ≠ []) (no_slash : '/' ∉ file.toList) :
    (w.pathOf (folder ++ "/" ++ file)).segments = (w.pathOf folder).segments ++ [file] := by
  rw [segments_pathOf_in, Path.segmentsOf_of_not_mem ne no_slash, List.map_singleton,
    String.ofList_toList]

/-- Slashes at the end of a path make no difference to its segments. -/
theorem segments_pathOf_dropTrailing (w : Workspace) (path : String) :
    (w.pathOf (String.ofList (Text.dropTrailing '/' path.toList))).segments =
      (w.pathOf path).segments := by
  rw [segments_pathOf, segments_pathOf, String.toList_ofList, Path.segmentsOf_dropTrailing]

/-- **The path of a file ends in its name.** -/
theorem getLast?_pathOf {folder file : String} (ne : file.toList ≠ []) (no_slash : '/' ∉ file.toList) :
    (w.pathOf (folder ++ "/" ++ file)).segments.getLast? = some file := by
  rw [segments_pathOf_of_name w folder ne no_slash, List.getLast?_concat]

/-- A path that is written without a slash at its end has none. -/
theorem trailing_pathOf_of_open_end (w : Workspace) (open_end : path.toList.getLast? ≠ some '/')
    (some_segment : Path.segmentsOf path.toList ≠ []) : (w.pathOf path).trailing = false := by
  obtain ⟨written, written_eq⟩ : ∃ written, written = Text.dropLeading '/' path.toList := ⟨_, rfl⟩
  have some_segment' : Path.segmentsOf written ≠ [] := by
    rwa [written_eq, Path.segmentsOf_dropLeading]
  have ends : written.getLast? ≠ some '/' := by
    intro slash
    obtain ⟨dropped, whole⟩ : written <:+ path.toList := written_eq ▸ List.dropWhile_suffix _
    rw [← whole, List.getLast?_append, slash, Option.some_or] at open_end
    exact open_end rfl
  rw [pathOf, ← written_eq, Path.join, Path.ofString]
  simp [some_segment', ends]

/-- The path of a file ends in no slash. -/
theorem trailing_pathOf (w : Workspace) {folder file : String} (ne : file.toList ≠ [])
    (no_slash : '/' ∉ file.toList) : (w.pathOf (folder ++ "/" ++ file)).trailing = false := by
  obtain ⟨c, mem⟩ := List.exists_mem_of_ne_nil _ ne
  refine w.trailing_pathOf_of_open_end ?_ (Path.segmentsOf_ne_nil (c := c) (by simp [mem]) ?_)
  · rw [String.toList_append, List.getLast?_append_of_ne_nil _ ne]
    exact fun slash => no_slash (List.mem_of_getLast? slash)
  · rintro rfl
    exact no_slash mem

theorem Holds.resolve (h : w.Holds d path text) : ∃ l, d.resolve (w.pathOf path) = .ok (.named l) := by
  obtain ⟨l, found⟩ := h
  exact ⟨l, (find_eq_ok_file.mp found).1⟩

/-- A file holds one text. -/
theorem Holds.eq {text' : String} (h : w.Holds d path text) (h' : w.Holds d path text') :
    text = text' := by
  obtain ⟨l, found⟩ := h
  obtain ⟨l', found'⟩ := h'
  rw [found] at found'
  cases found'
  rfl

/-- A file is not changed by what is done at other locations. -/
theorem Holds.of_changesWithin (h : w.Holds d path text) (changes : ChangesWithin S d d')
    (apart : ∀ l ∈ S, d.resolve (w.pathOf path) ≠ .ok (.named l)) : w.Holds d' path text := by
  obtain ⟨l, found⟩ := h
  have leads := (find_eq_ok_file.mp found).1
  exact ⟨l, changes.find_eq found fun mem => apart l mem leads⟩

/-- A file is not changed by what is done to files of other names. -/
theorem Holds.of_names (h : w.Holds d path text) (changes : ChangesWithin S d d')
    (names : ∀ l ∈ S, l.getLast? ≠ (w.pathOf path).segments.getLast?) : w.Holds d' path text :=
  h.of_changesWithin changes fun l mem leads => names l mem (getLast?_of_resolve leads)

end Workspace

end ModelGrid.Store
