import ModelGrid.Proofs.Store.Replay

/-!
# What stays, whatever an operation comes to

An operation that writes may fail half-way.  What it may have changed by then is said by the paths that
it was given: all else stays (`Disk.ConfinedTo`).  The paths are followed on the disk that is left, where
they lead to wherever they led before, so that the changes of several operations add up by their paths.

Saving is the one operation that undoes what it did before it fails: it leaves all as it was, apart from
the temporary file (`Disk.SameBut`).

## Main definitions

* `Disk.ConfinedTo`: between two disks all stays, apart from files where some paths lead.
* `Disk.SameBut`: between two disks all stays, apart from what is at some locations.
* `Action.StaysIn`: an action changes no files but those that some paths lead to.
* `Action.FailsAt`: actions done in turn fail at one of them.
* `Fault.Early`: the faults that a run ends in as long as it has not written.

## Main results

* `Action.staysIn_bind`: two actions stay where each of them does.
* `Action.inTurn_eq_error_iff`: actions in turn fail where one of them does.
* `Workspace.ends_overwrite_confined`, `Workspace.ends_delete_confined`,
  `Workspace.ends_create_confined`, `Workspace.ends_save_confined`: the operations that write, with both
  their ends.
-/

namespace ModelGrid

/-- What a run ends in as long as it has not written: the model, the project or the module file is not
there or cannot be made sense of, or a file that is needed is missing. -/
def Fault.Early : Fault → Prop
  | .projectNotFound _ | .moduleNotFound _ | .fileNotFound _ | .malformedInput _ | .modelName _
  | .workspaceFileNotFound _ | .workspaceFileUnparsable _ => True
  | .fileUnreadable .. | .anchorNotFound _ | .invalidEdit _ | .fileExists _ | .disk .. => False

namespace Store

namespace Disk

variable {paths paths' : List Path} {d d' d'' : Disk} {p : Path} {l t : Location} {S : Set Location}
  {e : Entry} {content : Content}

/-! ### Changes where paths lead -/

/-- All that is on the first disk is on the second one, apart from files at locations that the paths
lead to; there may be more folders. -/
def ConfinedTo (paths : List Path) (before after : Disk) : Prop :=
  ∃ S, ChangesWithin S before after ∧ ∀ l ∈ S, ∃ p ∈ paths, after.resolve p = .ok (.named l)

namespace ConfinedTo

@[refl] theorem refl (paths : List Path) (d : Disk) : ConfinedTo paths d d :=
  ⟨∅, .refl ∅ d, fun _ mem => absurd mem (Set.notMem_empty _)⟩

theorem mono (sub : paths ⊆ paths') (h : ConfinedTo paths d d') : ConfinedTo paths' d d' := by
  obtain ⟨S, changes, lead⟩ := h
  refine ⟨S, changes, fun l mem => ?_⟩
  obtain ⟨p, p_mem, leads⟩ := lead l mem
  exact ⟨p, sub p_mem, leads⟩

theorem trans (h : ConfinedTo paths d d') (h' : ConfinedTo paths d' d'') : ConfinedTo paths d d'' := by
  obtain ⟨S, changes, lead⟩ := h
  obtain ⟨T, changes', lead'⟩ := h'
  refine ⟨S ∪ T, changes.trans changes', ?_⟩
  rintro l (mem | mem)
  · obtain ⟨p, p_mem, leads⟩ := lead l mem
    exact ⟨p, p_mem, changes'.resolve_eq leads⟩
  · exact lead' l mem

theorem of_made (changes : ChangesWithin ∅ d d') : ConfinedTo paths d d' :=
  ⟨∅, changes, fun _ mem => absurd mem (Set.notMem_empty _)⟩

theorem put (leads : d.Leads p l) (mem : p ∈ paths) : ConfinedTo paths d (d.put l e) := by
  have changes : ChangesWithin {l} d (d.put l e) := changesWithin_put leads.free
  refine ⟨{l}, changes, ?_⟩
  rintro _ rfl
  exact ⟨p, mem, changes.resolve_eq leads.resolve⟩

theorem erase (leads : d.Leads p l) (mem : p ∈ paths) : ConfinedTo paths d (d.erase l) := by
  have changes : ChangesWithin {l} d (d.erase l) := changesWithin_erase leads.free
  refine ⟨{l}, changes, ?_⟩
  rintro _ rfl
  exact ⟨p, mem, changes.resolve_eq leads.resolve⟩

/-- **A file elsewhere** is there after the changes if and only if it was there before, and holds the
same. -/
theorem file_iff (h : ConfinedTo paths d d') (apart : ∀ p ∈ paths, d'.resolve p ≠ .ok (.named l)) :
    d'.entry? l = some (.file content) ↔ d.entry? l = some (.file content) := by
  obtain ⟨S, changes, lead⟩ := h
  have outside : l ∉ S := fun mem => by
    obtain ⟨p, p_mem, leads⟩ := lead l mem
    exact apart p p_mem leads
  constructor
  · intro there
    rw [← changes.entry?_eq outside (by simp [there]), there]
  · exact changes.entry l outside _

end ConfinedTo

/-! ### Changes that are undone -/

/-- The location that the path leads to, if it leads to one. -/
def reached (d : Disk) (p : Path) : Set Location := {l | d.resolve p = .ok (.named l)}

/-- Both disks have the same, files and folders, apart from what is at locations in `S`; no folder is
lost there. -/
structure SameBut (S : Set Location) (before after : Disk) : Prop where
  here : after.here = before.here
  entry : ∀ l ∉ S, after.entry? l = before.entry? l
  folder : ∀ l, before.entry? l = some .folder → after.entry? l = some .folder

namespace SameBut

@[refl] theorem refl (S : Set Location) (d : Disk) : SameBut S d d :=
  ⟨rfl, fun _ _ => rfl, fun _ there => there⟩

theorem changesWithin (h : SameBut S d d') : ChangesWithin S d d' :=
  ⟨h.here, h.folder, fun l apart _ there => (h.entry l apart).trans there,
    fun l apart free => .inl ((h.entry l apart).trans free)⟩

theorem confinedTo (h : SameBut (d.reached p) d d') (mem : p ∈ paths) : ConfinedTo paths d d' :=
  ⟨d.reached p, h.changesWithin, fun _ leads => ⟨p, mem, h.changesWithin.resolve_eq leads⟩⟩

/-- A file that was written where none of the folders is, and then taken away. -/
theorem erase_put (leads : d.Leads p t) : SameBut (d.reached p) d ((d.put t (.file content)).erase t) := by
  refine ⟨rfl, fun l apart => ?_, fun l there => ?_⟩
  · have ne : l ≠ t := by
      rintro rfl
      exact apart leads.resolve
    rw [entry?_erase_of_ne ne, entry?_put_of_ne ne]
  · have ne : l ≠ t := by
      rintro rfl
      exact leads.free there
    rw [entry?_erase_of_ne ne, entry?_put_of_ne ne, there]

end SameBut

end Disk

namespace Action

variable {α β : Type} {action : Action α} {next : α → Action β} {paths paths' : List Path}

/-- Whatever the action comes to, on whatever disk, it changes no files but those that the paths lead
to. -/
def StaysIn (paths : List Path) (action : Action α) : Prop :=
  ∀ d, action.Ends d (fun _ after => Disk.ConfinedTo paths d after)
    fun _ after => Disk.ConfinedTo paths d after

theorem StaysIn.mono (sub : paths ⊆ paths') (h : action.StaysIn paths) : action.StaysIn paths' :=
  fun d => ((h d).mono fun _ _ confined => confined.mono sub).weaken fun _ _ confined => confined.mono sub

theorem StaysIn.of_readsOnly (h : action.ReadsOnly) : action.StaysIn paths := by
  intro d
  refine ((h.ends d).mono ?_).weaken ?_
  · rintro _ _ rfl
    exact .refl _ _
  · rintro _ _ rfl
    exact .refl _ _

/-- **Two actions** stay where each of them does. -/
theorem staysIn_bind (first : action.StaysIn paths) (rest : ∀ a, (next a).StaysIn paths) :
    (action >>= next).StaysIn paths := by
  intro d
  refine ends_bind (first d) fun a mid so_far => ?_
  exact ((rest a mid).mono fun _ _ later => so_far.trans later).weaken fun _ _ later => so_far.trans later

theorem StaysIn.confinedTo (h : action.StaysIn paths) (d : Disk) :
    Disk.ConfinedTo paths d (action.on d).2 := by
  obtain ⟨done, failed⟩ := ends_iff.mp (h d)
  rcases result : action.on d with ⟨fault | a, after⟩
  · exact failed fault after result
  · exact done a after result

/-! ### Actions in turn -/

/-- Do the actions one after another. -/
def inTurn : List (Action Unit) → Action Unit
  | [] => pure ()
  | action :: rest => do
    action
    inTurn rest

/-- Done in turn, the actions in front of number `k` come to the disk `mid`, on which that one fails. -/
def FailsAt (actions : List (Action Unit)) (k : Nat) (fault : Fault) (d mid d' : Disk) : Prop :=
  (inTurn (actions.take k)).on d = (.ok (), mid) ∧
    ∃ action, actions[k]? = some action ∧ action.on mid = (.error fault, d')

/-- **Actions in turn fail** if and only if one of them does, and come to the disk that this one leaves. -/
theorem inTurn_eq_error_iff {actions : List (Action Unit)} {fault : Fault} {d d' : Disk} :
    (inTurn actions).on d = (.error fault, d') ↔ ∃ k mid, FailsAt actions k fault d mid d' := by
  induction actions generalizing d with
  | nil =>
    constructor
    · intro run
      cases run
    · rintro ⟨k, mid, _, action, found, _⟩
      cases found
  | cons action rest ih =>
    rw [inTurn, on_bind]
    rcases first : action.on d with ⟨fault' | ⟨⟨⟩⟩, after⟩
    · constructor
      · intro failed
        cases failed
        exact ⟨0, d, rfl, action, rfl, first⟩
      · rintro ⟨k, mid, done, action', found, failed⟩
        cases k with
        | zero =>
          cases done
          cases found
          rw [← first, failed]
        | succ k =>
          obtain ⟨_, _, done_first, _⟩ := on_bind_eq_ok.mp done
          rw [first] at done_first
          cases done_first
    · dsimp only
      rw [ih]
      constructor
      · rintro ⟨k, mid, done, failing⟩
        exact ⟨k + 1, mid, on_bind_eq_ok.mpr ⟨(), after, first, done⟩, failing⟩
      · rintro ⟨k, mid, done, action', found, failed⟩
        cases k with
        | zero =>
          cases done
          cases found
          rw [first] at failed
          cases failed
        | succ k =>
          obtain ⟨_, _, done_first, done_rest⟩ := on_bind_eq_ok.mp done
          rw [first] at done_first
          cases done_first
          exact ⟨k, mid, done_rest, action', found, failed⟩

/-! ### Single operations -/

theorem change_eq_error {cause : DiskFault → Fault} {operation : Disk → Except DiskFault Disk}
    {fault : Fault} {d d' : Disk} (run : (change cause operation).on d = (.error fault, d')) :
    d' = d ∧ ∃ why, operation d = .error why ∧ fault = cause why := by
  rw [change, on_get_bind] at run
  split at run
  next => cases run
  next why failed =>
    cases run
    exact ⟨rfl, why, failed, rfl⟩

end Action

namespace Workspace

open Disk Store.Action

variable {w : Workspace} {d : Disk} {path text : String} {s : Edit.Session}

/-- Where the new text of a file is written to first. -/
abbrev temporaryOf (w : Workspace) (path : String) : Path := (w.pathOf path).append temporarySuffix

/-! ### Operations with both their ends -/

/-- A change that is made where the paths lead, or not at all. -/
theorem ends_change_confined {attempt : Attempt} {operation : Disk → Except DiskFault Disk}
    {paths : List Path} {before : Disk} (so_far : ConfinedTo paths before d)
    (done : ∀ after, operation d = .ok after → ConfinedTo paths d after) :
    (change (.disk attempt path) operation).Ends d (fun _ after => ConfinedTo paths before after)
      fun fault after => ConfinedTo paths before after ∧ ¬ fault.Early :=
  ends_change (fun after made => so_far.trans (done after made)) fun _ _ => ⟨so_far, id⟩

/-- **Reading a file** fails for want of it only where it is not. -/
theorem ends_read_late (w : Workspace) (path : String) (d : Disk) :
    (w.read path).Ends d (fun _ after => after = d)
      fun fault after => after = d ∧ (w.hasFile path d = true → ¬ fault.Early) := by
  refine ends_get_bind ?_
  split
  next => exact ends_pure rfl
  next => exact ends_throw ⟨rfl, fun _ => id⟩
  next no_text no_binary =>
    refine ends_throw ⟨rfl, fun there => ?_⟩
    rw [hasFile, isFile] at there
    split at there
    next l content found =>
      cases content with
      | text held => exact absurd found (no_text l held)
      | binary bytes => exact absurd found (no_binary l bytes)
    next => cases there

theorem ends_session_late (w : Workspace) (path : String) (d : Disk) :
    (w.session path).Ends d (fun s after => after = d ∧ s.path = path)
      fun fault after => after = d ∧ (w.hasFile path d = true → ¬ fault.Early) :=
  ends_bind (ends_read_late w path d) fun _ _ same => ends_pure ⟨same, rfl⟩

theorem ends_insert_late (s : Edit.Session) (offset : Nat) (text : String) (side : Edit.Side) (d : Disk) :
    (insert s offset text side).Ends d (fun longer after => after = d ∧ longer.path = s.path)
      fun fault after => after = d ∧ ¬ fault.Early := by
  unfold insert Edit.Session.insert
  split
  next longer accepted =>
    split at accepted
    next =>
      cases accepted
      exact ends_pure ⟨rfl, rfl⟩
    next => cases accepted
  next => exact ends_throw ⟨rfl, id⟩

/-- The disk with the folders that lead to a file, as far as they can be made.  It is not unfolded by
itself, which would make them. -/
@[irreducible] def madeFor (w : Workspace) (path : String) (d : Disk) : Disk :=
  match (w.pathOf path).parent? with
  | some parent => (d.createFolders parent).2
  | none => d

theorem changesWithin_madeFor (w : Workspace) (path : String) (d : Disk) :
    ChangesWithin ∅ d (w.madeFor path d) := by
  rw [madeFor]
  split
  next parent _ => exact changesWithin_createFolders parent d
  next => exact .refl ∅ d

/-- **Writing a file** puts it where its path leads once folders are made; where it fails, it has made
folders at most. -/
theorem ends_overwrite_made (w : Workspace) (path text : String) (d : Disk) :
    (w.overwrite path text).Ends d
      (fun _ after => ∃ l, (w.madeFor path d).Leads (w.pathOf path) l ∧
        after = (w.madeFor path d).put l (.file (.text text)))
      fun fault after => after = w.madeFor path d ∧ ¬ fault.Early := by
  have written (before : Disk) :
      (change (.disk .write path) fun d => d.write (w.pathOf path) (.text text)).Ends before
        (fun _ after => ∃ l, before.Leads (w.pathOf path) l ∧ after = before.put l (.file (.text text)))
        fun fault after => after = before ∧ ¬ fault.Early :=
    ends_change (fun _ made => write_eq_ok_iff.mp made) fun _ _ => ⟨rfl, id⟩
  unfold overwrite
  dsimp only
  cases found : (w.pathOf path).parent? with
  | none =>
    have nothing : w.madeFor path d = d := by rw [madeFor, found]
    rw [nothing]
    exact written d
  | some parent =>
    obtain ⟨made, made_eq⟩ : ∃ made, made = w.madeFor path d := ⟨_, rfl⟩
    have folders : (createFolders parent d).2 = made := by rw [made_eq, madeFor, found]
    rw [← made_eq]
    refine ends_get_bind ?_
    rw [folders]
    have kept : (set made : Action Unit).Ends d (fun _ after => after = made)
        (fun fault after => after = made ∧ ¬ fault.Early) := ends_set rfl
    refine ends_bind kept ?_
    rintro _ _ rfl
    split
    next => exact ends_throw_bind ⟨rfl, id⟩
    next => exact written _

/-- **Writing a file** changes no other one, also where it fails. -/
theorem ends_overwrite_confined (w : Workspace) (path text : String) (d : Disk) :
    (w.overwrite path text).Ends d (fun _ after => ConfinedTo [w.pathOf path] d after)
      fun fault after => ConfinedTo [w.pathOf path] d after ∧ ¬ fault.Early := by
  have made := changesWithin_madeFor w path d
  refine ((ends_overwrite_made w path text d).mono ?_).weaken ?_
  · rintro _ _ ⟨l, leads, rfl⟩
    exact (ConfinedTo.of_made made).trans (.put leads List.mem_cons_self)
  · rintro _ _ ⟨rfl, late⟩
    exact ⟨.of_made made, late⟩

/-- **Taking a file away** changes no other one, also where it fails. -/
theorem ends_delete_confined (w : Workspace) (path : String) (d : Disk) :
    (w.delete path).Ends d (fun _ after => ConfinedTo [w.pathOf path] d after)
      fun fault after => ConfinedTo [w.pathOf path] d after ∧ ¬ fault.Early := by
  refine ends_change_confined (.refl _ _) fun after removed => ?_
  obtain ⟨l, old, found, rfl⟩ := remove_eq_ok removed
  exact .erase (leads_of_find found) List.mem_cons_self

/-- **Creating a file** changes no other one, also where it fails. -/
theorem ends_create_confined (w : Workspace) (path text : String) (d : Disk) :
    (w.create path text).Ends d (fun _ after => ConfinedTo [w.pathOf path] d after)
      fun fault after => ConfinedTo [w.pathOf path] d after ∧ ¬ fault.Early := by
  unfold create
  refine ends_get_bind ?_
  split
  next => exact ends_throw_bind ⟨.refl _ _, id⟩
  next => exact ends_overwrite_confined w path text d

/-- **Saving a session** replaces its file by way of the temporary one.  Where it fails, nothing is
written, or the temporary file is written and taken away again. -/
theorem ends_save_replaced (w : Workspace) (s : Edit.Session) (d : Disk) :
    (w.save s).Ends d
      (fun _ after => ∃ t l, d.Leads (w.temporaryOf s.path) t ∧ d.Leads (w.pathOf s.path) l ∧
        after = d.replace t l (.text s.apply))
      fun fault after => (after = d ∨ ∃ t, d.Leads (w.temporaryOf s.path) t ∧
        after = (d.put t (.file (.text s.apply))).erase t) ∧ ¬ fault.Early := by
  refine ends_iff.mpr ⟨fun _ after run => save_eq_ok.mp run, fun fault after run => ?_⟩
  unfold save at run
  dsimp only at run
  rw [on_bind] at run
  split at run
  next before writing =>
    -- the temporary file was written: it takes the name of the file, or is taken away again
    obtain ⟨t, temporary, rfl⟩ := write_eq_ok_iff.mp (change_eq_ok.mp writing)
    rw [on_get_bind] at run
    split at run
    next => cases run
    next =>
      have put : SameFolders d (d.put t (.file (.text s.apply))) := sameFolders_put temporary.free
      have removed := remove_of_leads (temporary.of_sameFolders put) (entry?_put temporary.named)
      rw [on_bind] at run
      cases run
      dsimp only
      rw [removed]
      exact ⟨.inr ⟨t, temporary, rfl⟩, id⟩
  next why before writing =>
    cases run
    obtain ⟨rfl, _, _, rfl⟩ := change_eq_error writing
    exact ⟨.inl rfl, id⟩

/-- **Saving a session** changes its file and the temporary one.  Where it fails it leaves all as it was,
apart from the temporary file. -/
theorem ends_save_confined (w : Workspace) (s : Edit.Session) (d : Disk) :
    (w.save s).Ends d
      (fun _ after => ConfinedTo [w.pathOf s.path, w.temporaryOf s.path] d after)
      fun fault after => SameBut (d.reached (w.temporaryOf s.path)) d after ∧ ¬ fault.Early := by
  refine ((ends_save_replaced w s d).mono ?_).weaken ?_
  · rintro _ _ ⟨t, l, temporary, leads, rfl⟩
    have put : SameFolders d (d.put t (.file (.text s.apply))) := sameFolders_put temporary.free
    have temporary' := temporary.of_sameFolders put
    have erased : SameFolders d ((d.put t (.file (.text s.apply))).erase t) :=
      put.trans (sameFolders_erase temporary'.free)
    have written : ConfinedTo [w.pathOf s.path, w.temporaryOf s.path] d
        (d.put t (.file (.text s.apply))) := .put temporary (by simp)
    have moved := written.trans (.erase temporary' (by simp))
    exact moved.trans (.put (leads.of_sameFolders erased) (by simp))
  · rintro _ _ ⟨rfl | ⟨t, temporary, rfl⟩, late⟩
    · exact ⟨.refl _ _, late⟩
    · exact ⟨.erase_put temporary, late⟩

end Workspace

end Store

end ModelGrid
