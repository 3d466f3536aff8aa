import ModelGrid.Proofs.Edit.Layout
import ModelGrid.Proofs.Store.Temporary

/-!
# Saving is all or nothing

A session is saved in two steps, of which the second one may fail after the first one is done: the
file's path may lead nowhere, or to a folder.  Then the temporary file is taken away again, and with
it what was at its place before.  What remains to be seen is that the file's own path does not notice.

Whatever a path is like, with dots or a slash at its end or without a name, the path of its temporary
file goes through the same folders and on to a name of its own (`Path.segments_append`).  If a file
can be written there, then all in front of that name are folders, so the path of the file is decided
by these folders alone, and does not lead to the temporary file (`Disk.resolve_of_leads_append`).

## Main results

* `Disk.find_of_leads_append`: what a path leads to does not depend on files beside it.
* `Workspace.ends_save_whole`: saving replaces the file, or leaves it as it was.
-/

namespace ModelGrid.Store

/-- A path with a text behind it has a name of its own in place of the path's last segment, or
behind all of them. -/
theorem Path.segments_append (p : Path) (text : String) :
    (p.append text).absolute = p.absolute ∧
      ((p.append text).segments = p.segments ++ [text] ∨
        ∃ front last, p.segments = front ++ [last] ∧
          (p.append text).segments = front ++ [last ++ text]) := by
  rw [append]
  split
  next none_there => simp [List.getLast?_eq_none_iff.mp none_there]
  next last found =>
    obtain ⟨front, segments⟩ := List.getLast?_eq_some_iff.mp found
    split
    · exact ⟨rfl, .inl rfl⟩
    · refine ⟨rfl, .inr ⟨front, last, segments, ?_⟩⟩
      simp [segments]

namespace Disk

variable {d d' : Disk} {p : Path} {start l t : Location} {front : List String} {text : String}

theorem LeadsToFolder.of_sameFolders (h : d.LeadsToFolder start front l) (same : SameFolders d d') :
    d'.LeadsToFolder start front l :=
  ⟨(same.folder l).mpr h.1, h.2.imp same.changesWithin.follow_eq same.changesWithin.follow_eq⟩

/-- From the same folder a last segment leads to the same place. -/
theorem follow_singleton_eq (there : d.entry? l = some .folder) (there' : d'.entry? l = some .folder)
    (segment : String) : d'.follow l [segment] = d.follow l [segment] := by
  rw [follow.eq_def, follow.eq_def]
  simp [there, there', follow]

/-- A path without a zero character is followed, unless it is empty. -/
theorem resolve_of_no_zero (no_zero : ∀ segment ∈ p.segments, '\x00' ∉ segment.toList) :
    d.resolve p =
      if p.isEmpty then .error .noEntry else d.follow (if p.absolute then [] else d.here) p.segments := by
  rw [resolve, if_neg]
  simpa using no_zero

/-- **A path is decided by folders** if a file can be written behind it, and it does not lead to that
file. -/
theorem resolve_of_leads_append (some_text : text ≠ "") (leads : d.Leads (p.append text) t)
    (same : SameFolders d d') :
    d'.resolve p = d.resolve p ∧ d.resolve p ≠ .ok (.named t) := by
  obtain ⟨no_zero, _, on⟩ := resolve_eq_ok.mp leads.resolve
  obtain ⟨absolute, segments | ⟨front, last, segments, segments'⟩⟩ := p.segments_append text
  · -- the path itself leads to the folder of the new file
    rw [segments] at on no_zero
    rw [absolute] at on
    have no_zero' := fun segment mem => no_zero segment (List.mem_append_left [text] mem)
    obtain ⟨above, folder, -, rfl⟩ := exists_leadsToFolder_of_follow_concat on
    have folder' := folder.of_sameFolders same
    rw [resolve_of_no_zero no_zero', resolve_of_no_zero no_zero', same.here]
    split
    · simp
    · obtain ⟨_, through | through⟩ := folder
      · rw [through, same.changesWithin.follow_eq through]
        simp
      · rw [through, same.changesWithin.follow_eq through]
        simp
  · -- the path leads on from the folder of the new file, by another name
    refine ⟨?_, fun leads' => ?_⟩
    · rw [segments'] at on no_zero
      rw [absolute] at on
      have no_zero' : ∀ segment ∈ p.segments, '\x00' ∉ segment.toList := by
        rw [segments]
        intro segment mem
        rcases List.mem_append.mp mem with above | at_end
        · exact no_zero segment (List.mem_append_left _ above)
        · have whole := no_zero (last ++ text) (by simp)
          rw [List.mem_singleton.mp at_end]
          simp only [String.toList_append, List.mem_append, not_or] at whole
          exact whole.1
      obtain ⟨above, folder, -, rfl⟩ := exists_leadsToFolder_of_follow_concat on
      have folder' := folder.of_sameFolders same
      rw [resolve_of_no_zero no_zero', resolve_of_no_zero no_zero', same.here, segments,
        folder.follow_append_eq (by simp), folder'.follow_append_eq (by simp),
        follow_singleton_eq folder.1 folder'.1]
    · have names := (getLast?_of_resolve leads.resolve).symm.trans (getLast?_of_resolve leads')
      rw [segments, segments', List.getLast?_concat, List.getLast?_concat] at names
      have lengths := congrArg String.length (Option.some.inj names)
      rw [String.length_append] at lengths
      exact some_text (String.length_eq_zero_iff.mp (by omega))

/-- **What a path leads to** does not depend on the file behind it. -/
theorem find_of_leads_append (some_text : text ≠ "") (leads : d.Leads (p.append text) t)
    (same : SameFolders d d') (other : ∀ l, l ≠ t → d'.entry? l = d.entry? l) : d'.find p = d.find p := by
  obtain ⟨resolves, apart⟩ := resolve_of_leads_append some_text leads same
  rw [find, find, resolves]
  split
  · rfl
  · rfl
  next l named =>
    have ne : l ≠ t := by
      rintro rfl
      exact apart named
    rw [other l ne]

end Disk

namespace Workspace

open Disk Store.Action

/-- **Saving is all or nothing.**  Whatever is on the disk, saving a session puts its edited text in
the place of its file and leaves no temporary file, or fails and leaves at the path what was there,
be it a file, a folder or nothing.  In both cases all stays the same at every location that neither
the path nor that of the temporary file leads to.  It succeeds where both paths lead to where a file
may be put. -/
theorem ends_save_whole (w : Workspace) (s : Edit.Session) (d : Disk) :
    (w.save s).Ends d
        (fun _ after =>
          (∃ text, s.edited? = some text ∧ w.Holds after s.path text) ∧
            after.find (w.temporaryOf s.path) = .error .noEntry)
        (fun _ after => after.find (w.pathOf s.path) = d.find (w.pathOf s.path)) ∧
      (∀ l, d.resolve (w.pathOf s.path) ≠ .ok (.named l) →
        d.resolve (w.temporaryOf s.path) ≠ .ok (.named l) →
          Disk.entry? ((w.save s).on d).2 l = d.entry? l) ∧
      ((∃ after, (w.save s).on d = (.ok (), after)) ↔
        (∃ l, d.Leads (w.pathOf s.path) l) ∧ ∃ t, d.Leads (w.temporaryOf s.path) t) := by
  have failed := fun fault after run => ((ends_iff.mp (ends_save_replaced w s d)).2 fault after run).1
  refine ⟨ends_iff.mpr ⟨fun _ after run => ?_, fun fault after run => ?_⟩, fun x apart apart' => ?_, ?_⟩
  · obtain ⟨t, l, temporary, leads, _, replaced, same⟩ := replaced_of_save run
    refine ⟨⟨s.apply, ?_, l, find_of_leads (leads.of_sameFolders same) replaced.file⟩, ?_⟩
    · rw [Edit.Session.apply, Edit.Session.edited?_eq_layout, Option.getD_some]
    · rw [find, (temporary.of_sameFolders same).resolve]
      dsimp only
      rw [replaced.temporary]
  · obtain rfl | ⟨t, temporary, rfl⟩ := failed fault after run
    · rfl
    · have put : SameFolders d (d.put t (.file (.text s.apply))) := sameFolders_put temporary.free
      have same := put.trans (sameFolders_erase (temporary.of_sameFolders put).free)
      refine find_of_leads_append temporarySuffix_ne temporary same fun l ne => ?_
      rw [entry?_erase_of_ne ne, entry?_put_of_ne ne]
  · rcases result : (w.save s).on d with ⟨fault | ⟨⟨⟩⟩, after⟩
    · obtain rfl | ⟨t, temporary, rfl⟩ := failed fault after result
      · rfl
      · exact (SameBut.erase_put temporary).entry x apart'
    · obtain ⟨t, l, temporary, leads, _, replaced, _⟩ := replaced_of_save result
      refine replaced.other x ?_ ?_
      · rintro rfl
        exact apart' temporary.resolve
      · rintro rfl
        exact apart leads.resolve
  · constructor
    · rintro ⟨after, run⟩
      obtain ⟨t, l, temporary, leads, _⟩ := replaced_of_save run
      exact ⟨⟨l, leads⟩, t, temporary⟩
    · rintro ⟨⟨l, leads⟩, t, temporary⟩
      exact ⟨_, save_eq_ok.mpr ⟨t, l, temporary, leads, rfl⟩⟩

/-- A folder with a file whose temporary file cannot be written, a folder, and a file. -/
def crowdedDisk : Disk where
  here := []
  entries :=
    [(["w"], .folder), (["w", "f"], .file (.text "old")), (["w", "f.table-scaffold.tmp"], .folder),
      (["w", "g"], .folder), (["w", "h"], .file (.text "old"))]

/-- Saving fails in its first step, in its second one, and not at all. -/
theorem ends_save_whole_crowded :
    let w : Workspace := ⟨.ofString "/w"⟩
    (∃ after, (w.save (.start "f" "new")).on crowdedDisk = (.error (.disk .write "f" .isFolder), after) ∧
      after.find (w.pathOf "f") = .ok (["w", "f"], .file (.text "old"))) ∧
    (∃ after, (w.save (.start "g" "new")).on crowdedDisk = (.error (.disk .replace "g" .isFolder), after) ∧
      after.find (w.pathOf "g") = .ok (["w", "g"], .folder)) ∧
    ∃ after, (w.save (.start "h" "new")).on crowdedDisk = (.ok (), after) ∧ w.Holds after "h" "new" := by
  intro w
  have failed (path : String) {fault : Fault}
      (result : ((w.save (.start path "new")).on crowdedDisk).1 = .error fault) :
      ∃ after, (w.save (.start path "new")).on crowdedDisk = (.error fault, after) ∧
        after.find (w.pathOf path) = crowdedDisk.find (w.pathOf path) :=
    ⟨_, eq_mk_of_fst_eq result, (ends_iff.mp (ends_save_whole w (.start path "new") crowdedDisk).1).2
      fault _ (eq_mk_of_fst_eq result)⟩
  refine ⟨failed "f" (by decide +kernel), failed "g" (by decide +kernel), ?_⟩
  obtain ⟨after, run⟩ : ∃ after, (w.save (.start "h" "new")).on crowdedDisk = (.ok (), after) :=
    ⟨_, eq_mk_of_fst_eq (by decide +kernel)⟩
  obtain ⟨⟨text, edited, holds⟩, -⟩ :=
    (ends_iff.mp (ends_save_whole w (.start "h" "new") crowdedDisk).1).1 () after run
  obtain rfl : "new" = text := by
    have whole : Edit.Session.edited? (.start "h" "new") = some "new" := by decide +kernel
    exact Option.some.inj (whole.symm.trans edited)
  exact ⟨after, run, holds⟩

end Workspace

end ModelGrid.Store
