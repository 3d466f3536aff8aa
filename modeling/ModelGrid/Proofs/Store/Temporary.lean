import ModelGrid.Proofs.Store.Frame

/-!
# Temporary files

The temporary file of an edit is in the folder of the file that is edited.  Where a path leads to a file,
it is known from the folders alone where the temporary file is, and whether saving succeeds.

## Main definitions

* `temporaryAt`: where the temporary file of the file at a location is.
* `Workspace.Apart`: two paths lead to different files, neither the temporary file of the other.

## Main results

* `Workspace.leads_temporaryOf_iff`: where the path of a temporary file leads.
* `Workspace.on_save`: what saving comes to.
-/

namespace ModelGrid.Store

variable {l l' : Location}

/-! ### The location of a temporary file -/

/-- The location beside a location, of the name with the temporary suffix behind it. -/
def temporaryAt (l : Location) : Location :=
  l.dropLast ++ [l.getLastD "" ++ Workspace.temporarySuffix]

theorem temporaryAt_concat (above : Location) (name : String) :
    temporaryAt (above ++ [name]) = above ++ [name ++ Workspace.temporarySuffix] := by
  simp [temporaryAt]

theorem temporaryAt_inj (named : l ≠ []) (named' : l' ≠ []) :
    temporaryAt l = temporaryAt l' ↔ l = l' := by
  obtain ⟨above, name, rfl⟩ := l.eq_nil_or_concat'.resolve_left named
  obtain ⟨above', name', rfl⟩ := l'.eq_nil_or_concat'.resolve_left named'
  simp [temporaryAt_concat]

theorem temporaryAt_ne (named : l ≠ []) : temporaryAt l ≠ l := by
  obtain ⟨above, name, rfl⟩ := l.eq_nil_or_concat'.resolve_left named
  rw [temporaryAt_concat]
  intro same
  have longer : name ++ Workspace.temporarySuffix = name := by simpa using same
  simp [Workspace.temporarySuffix_ne] at longer

namespace Disk

variable {d d' : Disk} {p : Path} {content : Content}

/-- A path with another name at its end. -/
theorem follow_other {start : Location} {front : List String} {name other : String}
    (leads : d.follow start (front ++ [name]) = .ok (.named l)) (not_dot : other ≠ ".")
    (not_up : other ≠ "..") :
    l = l.dropLast ++ [name] ∧ d.follow start (front ++ [other]) =
      if other.utf8ByteSize ≤ nameLimit then .ok (.named (l.dropLast ++ [other]))
      else .error .nameTooLong := by
  obtain ⟨above, folder, -, rfl⟩ := exists_leadsToFolder_of_follow_concat leads
  refine ⟨by simp, ?_⟩
  rw [folder.follow_append_eq (by simp), follow.eq_def]
  by_cases short : other.utf8ByteSize ≤ nameLimit
  · simp [folder.1, not_dot, not_up, Nat.not_lt.mpr short, short]
  · simp [folder.1, not_dot, not_up, Nat.lt_of_not_le short, short]

/-- Why no temporary file can be written for the file at a location, if so. -/
def obstacle? (d : Disk) (l : Location) : Option DiskFault :=
  if (l.getLastD "" ++ Workspace.temporarySuffix).utf8ByteSize ≤ nameLimit then
    match d.entry? (temporaryAt l) with
    | some .folder => some .isFolder
    | _ => none
  else some .nameTooLong

end Disk

namespace Workspace

open Disk Store.Action

variable {w : Workspace} {d d' : Disk} {path : String} {s : Edit.Session} {t : Location}

/-! ### The path of a temporary file -/

/-- The name of a temporary file is not made of dots. -/
theorem append_temporarySuffix_ne {name text : String} (short : text.length ≤ 2) :
    name ++ temporarySuffix ≠ text := by
  rintro rfl
  have long : temporarySuffix.length = 19 := by decide
  rw [String.length_append] at short
  omega

/-- The path of the temporary file, by the segments of the path of the file. -/
theorem temporaryOf_eq {front : List String} {name : String}
    (segments : (w.pathOf path).segments = front ++ [name]) (open_end : (w.pathOf path).trailing = false) :
    w.temporaryOf path = ⟨(w.pathOf path).absolute, front ++ [name ++ temporarySuffix], false⟩ := by
  unfold temporaryOf Path.append
  rw [segments, open_end]
  simp

/-- A path to a file of another name in the folder. -/
theorem leads_of_isName {folder file name : String}
    (leads : d.Leads (w.pathOf (folder ++ "/" ++ file)) l) (file_ne : file.toList ≠ [])
    (file_plain : '/' ∉ file.toList) (is : IsName name) (ne : name.toList ≠ [])
    (plain : '/' ∉ name.toList ∧ '\x00' ∉ name.toList)
    (free : d.entry? (l.dropLast ++ [name]) ≠ some .folder) :
    d.Leads (w.pathOf (folder ++ "/" ++ name)) (l.dropLast ++ [name]) := by
  obtain ⟨no_zero, _, on⟩ := resolve_eq_ok.mp leads.resolve
  rw [segments_pathOf_of_name w folder file_ne file_plain] at no_zero on
  obtain ⟨_, other⟩ := follow_other on is.1 is.2.1
  rw [if_pos is.2.2, absolute_pathOf] at other
  refine ⟨resolve_eq_ok.mpr ⟨fun segment mem => ?_, ?_, ?_⟩, trailing_pathOf w ne plain.1, free⟩
  · rw [segments_pathOf_of_name w folder ne plain.1] at mem
    rcases List.mem_append.mp mem with above | at_end
    · exact no_zero segment (List.mem_append_left _ above)
    · exact List.mem_singleton.mp at_end ▸ plain.2
  · simp [Path.isEmpty, segments_pathOf_of_name w folder ne plain.1]
  · rw [segments_pathOf_of_name w folder ne plain.1, absolute_pathOf]
    exact other

/-- **Where the temporary file is** of a file that a path leads to. -/
theorem resolve_temporaryOf (leads : d.Leads (w.pathOf path) l) :
    d.resolve (w.temporaryOf path) =
      if (l.getLastD "" ++ temporarySuffix).utf8ByteSize ≤ nameLimit then .ok (.named (temporaryAt l))
      else .error .nameTooLong := by
  obtain ⟨no_zero, _, on⟩ := resolve_eq_ok.mp leads.resolve
  obtain ⟨front, name, segments⟩ := exists_segments_of_leads leads
  have whole := temporaryOf_eq segments leads.open_end
  rw [segments] at on no_zero
  obtain ⟨here, other⟩ := follow_other on (append_temporarySuffix_ne (by decide))
    (append_temporarySuffix_ne (by decide))
  have last : l.getLastD "" = name := by rw [here]; simp
  have temporary : temporaryAt l = l.dropLast ++ [name ++ temporarySuffix] := by rw [temporaryAt, last]
  have no_zero' : (front ++ [name ++ temporarySuffix]).any (fun segment =>
      segment.toList.contains '\x00') = false := by
    refine List.any_eq_false.mpr fun segment mem => ?_
    rcases List.mem_append.mp mem with above | at_end
    · simpa using no_zero segment (List.mem_append_left _ above)
    · have in_name := no_zero name (by simp)
      have in_suffix : '\x00' ∉ temporarySuffix.toList := by decide
      rw [List.mem_singleton.mp at_end]
      simp [in_name, in_suffix]
  rw [whole, last, temporary, ← other, resolve, no_zero']
  simp [Path.isEmpty]

/-- The path of a temporary file leads to it, unless something is in the way. -/
theorem leads_temporaryOf_iff (leads : d.Leads (w.pathOf path) l) :
    d.Leads (w.temporaryOf path) t ↔ d.obstacle? l = none ∧ t = temporaryAt l := by
  have resolved := resolve_temporaryOf leads
  have open_end : (w.temporaryOf path).trailing = false := by
    obtain ⟨front, name, segments⟩ := exists_segments_of_leads leads
    rw [temporaryOf_eq segments leads.open_end]
  rw [obstacle?]
  split at resolved
  next short =>
    rw [if_pos short]
    constructor
    · intro temporary
      have same := temporary.resolve.symm.trans resolved
      cases same
      refine ⟨?_, rfl⟩
      split
      next there => exact absurd there temporary.free
      next => rfl
    · rintro ⟨free, rfl⟩
      refine ⟨resolved, open_end, fun there => ?_⟩
      rw [there] at free
      cases free
  next long =>
    rw [if_neg long]
    constructor
    · intro temporary
      have same := temporary.resolve.symm.trans resolved
      cases same
    · rintro ⟨impossible, _⟩
      cases impossible

/-- What is in the way of a temporary file is why it is not written. -/
theorem write_temporaryOf {content : Content} {why : DiskFault} (leads : d.Leads (w.pathOf path) l)
    (there : d.obstacle? l = some why) : d.write (w.temporaryOf path) content = .error why := by
  have resolved := resolve_temporaryOf leads
  rw [obstacle?] at there
  rw [write]
  split at there
  next short =>
    rw [if_pos short] at resolved
    rw [resolved]
    dsimp only
    split at there
    next folder =>
      cases there
      rw [folder]
    next => cases there
  next long =>
    cases there
    rw [if_neg long] at resolved
    rw [resolved]

/-- **What saving comes to** where the path of the session leads to a file, or to where one may be. -/
theorem on_save (leads : d.Leads (w.pathOf s.path) l) :
    (w.save s).on d =
      match d.obstacle? l with
      | some why => (.error (.disk .write s.path why), d)
      | none => (.ok (), d.replace (temporaryAt l) l (.text s.apply)) := by
  split
  next why there =>
    have failed : (change (.disk .write s.path) fun d =>
        d.write ((w.pathOf s.path).append temporarySuffix) (.text s.apply)).on d =
          (.error (.disk .write s.path why), d) := by
      rw [change, on_get_bind, write_temporaryOf leads there]
      rfl
    unfold save
    dsimp only
    rw [on_bind, failed]
  next free =>
    have temporary := (leads_temporaryOf_iff leads).mpr ⟨free, rfl⟩
    exact save_eq_ok.mpr ⟨_, l, temporary, leads, rfl⟩

/-! ### Files apart -/

/-- The paths do not lead to the same file, nor either of them to the temporary file of the other. -/
def Apart (w : Workspace) (d : Disk) (path path' : String) : Prop :=
  ∀ l l', d.Leads (w.pathOf path) l → d.Leads (w.pathOf path') l' →
    l ≠ l' ∧ l ≠ temporaryAt l' ∧ temporaryAt l ≠ l'

theorem Apart.symm {path' : String} (h : w.Apart d path path') : w.Apart d path' path :=
  fun l l' leads leads' =>
    have ⟨files, temporary, temporary'⟩ := h l' l leads' leads
    ⟨files.symm, temporary'.symm, temporary.symm⟩

end Workspace

end ModelGrid.Store
