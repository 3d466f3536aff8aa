import ModelGrid.Proofs.Store.Disk
import ModelGrid.Store.Workspace

/-!
# What actions come to

An action is done on a disk and comes to a result or a fault, and to a disk.  What it comes to is said
of both ways at once (`Action.Ends`), so that a run of actions is read off its parts by a single rule
(`Action.ends_bind`).

## Main definitions

* `Action.on`: the result and the disk that an action comes to.
* `Action.Ends`: what is true of a result and its disk, or else of a fault and its disk.
* `Action.ReadsOnly`: the action leaves the disk as it is.
* `Workspace.Holds`: a file of the workspace holds a text.

## Main results

* `Workspace.ends_read`, `Workspace.ends_overwrite`, `Workspace.ends_delete`,
  `Workspace.ends_create`, `Workspace.ends_session`, `Workspace.ends_save`,
  `Workspace.ends_insert`: what the operations come to.
-/

namespace ModelGrid

namespace Store

variable {α β : Type} {d d' : Disk}

/-- A pair of which the first part is known.  Nothing is said of the second, which need not be
computed. -/
theorem eq_mk_of_fst_eq {p : α × β} {a : α} (h : p.1 = a) : p = (a, p.2) := by
  rw [← h]

namespace Action

/-! ### Runs of actions -/

/-- The result and the disk that the action comes to. -/
def on (action : Action α) (d : Disk) : Except Fault α × Disk :=
  action.run d

@[simp] theorem on_pure (a : α) (d : Disk) : (pure a : Action α).on d = (.ok a, d) := rfl

@[simp] theorem on_throw (fault : Fault) (d : Disk) :
    (throw fault : Action α).on d = (.error fault, d) := rfl

@[simp] theorem on_get (d : Disk) : (get : Action Disk).on d = (.ok d, d) := rfl

@[simp] theorem on_set (d' d : Disk) : (set d' : Action Unit).on d = (.ok (), d') := rfl

theorem on_bind (action : Action α) (next : α → Action β) (d : Disk) :
    (action >>= next).on d =
      match action.on d with
      | (.ok a, after) => (next a).on after
      | (.error fault, after) => (.error fault, after) := by
  show ((action.run >>= ExceptT.bindCont next) d : Except Fault β × Disk) = _
  rw [on]
  show ExceptT.bindCont next (action.run d).1 (action.run d).2 = _
  rcases action.run d with ⟨result | result, after⟩
  · rfl
  · rfl

theorem on_map (f : α → β) (action : Action α) (d : Disk) :
    (f <$> action).on d = ((action.on d).1.map f, (action.on d).2) := by
  rw [map_eq_pure_bind, on_bind]
  rcases action.on d with ⟨fault | a, after⟩
  · rfl
  · rfl

theorem on_get_bind (next : Disk → Action β) (d : Disk) :
    ((get : Action Disk) >>= next).on d = (next d).on d := rfl

/-- **Two actions that succeed**, one after the other. -/
theorem on_bind_eq_ok {action : Action α} {next : α → Action β} {b : β} :
    (action >>= next).on d = (.ok b, d') ↔
      ∃ a mid, action.on d = (.ok a, mid) ∧ (next a).on mid = (.ok b, d') := by
  rw [on_bind]
  constructor
  · intro run
    split at run
    next a mid first => exact ⟨a, mid, first, run⟩
    next => cases (Prod.mk.inj run).1
  · rintro ⟨a, mid, first, rest⟩
    rw [first]
    exact rest

theorem change_eq_ok {cause : DiskFault → Fault} {operation : Disk → Except DiskFault Disk} :
    (change cause operation).on d = (.ok (), d') ↔ operation d = .ok d' := by
  rw [change, on_get_bind]
  constructor
  · intro run
    split at run
    next after done =>
      cases run
      exact done
    next => cases run
  · intro done
    rw [done]
    rfl

theorem on_tryCatch (action : Action α) (handle : Fault → Action α) (d : Disk) :
    (tryCatch action handle : Action α).on d =
      match action.on d with
      | (.ok a, after) => (.ok a, after)
      | (.error fault, after) => (handle fault).on after := by
  have body : (tryCatch action handle : Action α).on d =
      (match (action.on d).1 with
        | .ok a => (pure a : Action α).on (action.on d).2
        | .error fault => (handle fault).on (action.on d).2) := by
    simp only [on, ExceptT.run, tryCatch, tryCatchThe, MonadExceptOf.tryCatch, ExceptT.tryCatch,
      ExceptT.mk, bind, StateT.bind]
    rcases action d with ⟨fault | a, after⟩
    · rfl
    · rfl
  rw [body]
  rcases action.on d with ⟨fault | a, after⟩
  · rfl
  · rfl

/-- Done on the disk, the action comes to a result and a disk of which `good` is true, or to a fault
and a disk of which `bad` is true.  It is not unfolded by itself, which would do the action. -/
@[irreducible] def Ends (action : Action α) (d : Disk) (good : α → Disk → Prop)
    (bad : Fault → Disk → Prop) : Prop :=
  match action.on d with
  | (.ok a, after) => good a after
  | (.error fault, after) => bad fault after

variable {action : Action α} {next : α → Action β} {good : β → Disk → Prop}
  {mid mid' : α → Disk → Prop} {bad : Fault → Disk → Prop}

theorem Ends.mono (h : action.Ends d mid bad) (weaker : ∀ a after, mid a after → mid' a after) :
    action.Ends d mid' bad := by
  unfold Ends at h ⊢
  split at h
  next a after result => exact weaker a after h
  next => exact h

theorem Ends.of_on {a : α} (h : action.Ends d mid bad) (run : action.on d = (.ok a, d')) :
    mid a d' := by
  unfold Ends at h
  rw [run] at h
  exact h

theorem Ends.weaken {bad' : Fault → Disk → Prop} (h : action.Ends d mid bad)
    (weaker : ∀ fault after, bad fault after → bad' fault after) : action.Ends d mid bad' := by
  unfold Ends at h ⊢
  split at h
  next => exact h
  next fault after result => exact weaker fault after h

theorem ends_pure {a : α} (h : mid a d) : (pure a : Action α).Ends d mid bad := by
  unfold Ends
  exact h

theorem ends_throw {fault : Fault} (h : bad fault d) :
    (throw fault : Action α).Ends d mid bad := by
  unfold Ends
  exact h

/-- **Two actions, one after the other.** -/
theorem ends_bind (first : action.Ends d mid bad)
    (rest : ∀ a after, mid a after → (next a).Ends after good bad) :
    (action >>= next).Ends d good bad := by
  unfold Ends at first ⊢
  rw [on_bind]
  split at first
  next a after result =>
    have later := rest a after first
    unfold Ends at later
    exact later
  next => exact first

theorem ends_get_bind {next : Disk → Action β} (rest : (next d).Ends d good bad) :
    ((get : Action Disk) >>= next).Ends d good bad := by
  unfold Ends at rest ⊢
  exact rest

/-- What comes after a fault is not done. -/
theorem ends_throw_bind {fault : Fault} (h : bad fault d) :
    ((throw fault : Action α) >>= next).Ends d good bad := by
  have fails : (throw fault : Action α).Ends d (fun _ _ => False) bad := ends_throw h
  exact ends_bind fails fun _ _ impossible => impossible.elim

theorem ends_set {d' : Disk} {good : Unit → Disk → Prop} (h : good () d') :
    (set d' : Action Unit).Ends d good bad := by
  unfold Ends
  exact h

theorem ends_change {cause : DiskFault → Fault} {operation : Disk → Except DiskFault Disk}
    {good : Unit → Disk → Prop} (done : ∀ after, operation d = .ok after → good () after)
    (not_done : ∀ fault, operation d = .error fault → bad (cause fault) d) :
    (change cause operation).Ends d good bad := by
  refine ends_get_bind ?_
  cases result : operation d with
  | ok after => exact ends_set (done after result)
  | error fault => exact ends_throw (not_done fault result)

/-- What is true of both ways an action may end, said of each way apart. -/
theorem ends_iff : action.Ends d mid bad ↔
    (∀ a after, action.on d = (.ok a, after) → mid a after) ∧
      ∀ fault after, action.on d = (.error fault, after) → bad fault after := by
  unfold Ends
  rcases action.on d with ⟨fault | a, after⟩
  · exact ⟨fun h => ⟨nofun, by rintro _ _ ⟨⟩; exact h⟩, fun h => h.2 fault after rfl⟩
  · exact ⟨fun h => ⟨by rintro _ _ ⟨⟩; exact h, nofun⟩, fun h => h.1 a after rfl⟩

theorem Ends.and {bad' : Fault → Disk → Prop} (h : action.Ends d mid bad)
    (h' : action.Ends d mid' bad') :
    action.Ends d (fun a after => mid a after ∧ mid' a after)
      fun fault after => bad fault after ∧ bad' fault after := by
  obtain ⟨done, failed⟩ := ends_iff.mp h
  obtain ⟨done', failed'⟩ := ends_iff.mp h'
  exact ends_iff.mpr ⟨fun a after run => ⟨done a after run, done' a after run⟩,
    fun fault after run => ⟨failed fault after run, failed' fault after run⟩⟩

/-! ### Actions that read only -/

/-- The action leaves the disk as it is, also where it fails. -/
def ReadsOnly (action : Action α) : Prop := ∀ d, (action.on d).2 = d

theorem ReadsOnly.eq (h : action.ReadsOnly) {result : Except Fault α}
    (run : action.on d = (result, d')) : d' = d := by
  have same := h d
  rwa [run] at same

theorem ReadsOnly.ends (h : action.ReadsOnly) (d : Disk) :
    action.Ends d (fun _ after => after = d) fun _ after => after = d :=
  ends_iff.mpr ⟨fun _ _ run => h.eq run, fun _ _ run => h.eq run⟩

theorem readsOnly_pure (a : α) : (pure a : Action α).ReadsOnly := fun _ => rfl

theorem readsOnly_throw (fault : Fault) : (throw fault : Action α).ReadsOnly := fun _ => rfl

theorem readsOnly_get : (get : Action Disk).ReadsOnly := fun _ => rfl

theorem readsOnly_bind (first : action.ReadsOnly) (rest : ∀ a, (next a).ReadsOnly) :
    (action >>= next).ReadsOnly := by
  intro d
  have same := first d
  rw [on_bind]
  rcases result : action.on d with ⟨fault | a, after⟩
  · rwa [result] at same
  · rw [result] at same
    exact (rest a after).trans same

theorem readsOnly_tryCatch {handle : Fault → Action α} (tried : action.ReadsOnly)
    (handled : ∀ fault, (handle fault).ReadsOnly) : (tryCatch action handle : Action α).ReadsOnly := by
  intro d
  have same := tried d
  rw [on_tryCatch]
  rcases result : action.on d with ⟨fault | a, after⟩
  · rw [result] at same
    exact (handled fault after).trans same
  · rwa [result] at same

end Action

end Store

/-- The fault is none of an edit's: no anchor was missed, and no insertion refused. -/
def Fault.IsOutside (fault : Fault) : Prop :=
  (∀ anchor, fault ≠ .anchorNotFound anchor) ∧ ∀ refusal, fault ≠ .invalidEdit refusal

namespace Store.Workspace

open Disk Store.Action

variable {d d' : Disk} {w : Workspace} {path text : String}

/-- A file of the workspace holds a text. -/
def Holds (w : Workspace) (d : Disk) (path text : String) : Prop :=
  ∃ l, d.find (w.pathOf path) = .ok (l, .file (.text text))

/-- The bad end of an operation on files: whatever happened to the disk, the fault is none of an
edit's. -/
abbrev Outside (fault : Fault) (_ : Disk) : Prop := fault.IsOutside

/-! ### Operations -/

theorem ends_read (w : Workspace) (path : String) (d : Disk) :
    (w.read path).Ends d (fun text after => after = d ∧ w.Holds d path text) Outside := by
  refine ends_get_bind ?_
  split
  next l text found => exact ends_pure ⟨rfl, l, found⟩
  next => exact ends_throw ⟨by simp, by simp⟩
  next => exact ends_throw ⟨by simp, by simp⟩

theorem read_eq_ok : (w.read path).on d = (.ok text, d') ↔ d' = d ∧ w.Holds d path text := by
  constructor
  · intro run
    exact (ends_read w path d).of_on run
  · rintro ⟨rfl, l, found⟩
    rw [read, on_get_bind, found]
    rfl

theorem readsOnly_read (w : Workspace) (path : String) : (w.read path).ReadsOnly := by
  refine readsOnly_bind readsOnly_get fun d => ?_
  split
  next => exact readsOnly_pure _
  next => exact readsOnly_throw _
  next => exact readsOnly_throw _

theorem list_eq_ok {listing : Listing} : (w.list path).on d = (.ok listing, d') ↔
    d' = d ∧ d.listing (w.pathOf path) = .ok listing := by
  unfold list
  rw [on_get_bind]
  cases listed : d.listing (w.pathOf path) with
  | ok there =>
    constructor
    · intro run
      cases run
      exact ⟨rfl, rfl⟩
    · rintro ⟨rfl, same⟩
      cases same
      rfl
  | error fault =>
    constructor
    · intro run
      cases run
    · rintro ⟨_, same⟩
      cases same

theorem readsOnly_list (w : Workspace) (path : String) : (w.list path).ReadsOnly := by
  refine readsOnly_bind readsOnly_get fun d => ?_
  split
  next => exact readsOnly_pure _
  next => exact readsOnly_throw _

theorem ends_session (w : Workspace) (path : String) (d : Disk) :
    (w.session path).Ends d
      (fun s after => after = d ∧ ∃ text, w.Holds d path text ∧ s = .start path text) Outside :=
  ends_bind (ends_read w path d) fun text _ ⟨same, holds⟩ => ends_pure ⟨same, text, holds, rfl⟩

/-- **Writing a file** makes the folders that lead to it, and changes no other file. -/
theorem ends_overwrite (w : Workspace) (path text : String) (d : Disk) :
    (w.overwrite path text).Ends d
      (fun _ after => ∃ l, after.find (w.pathOf path) = .ok (l, .file (.text text)) ∧
        ChangesWithin {l} d after) Outside := by
  have written (before : Disk) (changes : ChangesWithin ∅ d before) :
      (change (.disk .write path) fun d => d.write (w.pathOf path) (.text text)).Ends before
        (fun _ after => ∃ l, after.find (w.pathOf path) = .ok (l, .file (.text text)) ∧
          ChangesWithin {l} d after) Outside := by
    refine ends_change (fun after done => ?_) fun fault _ => ⟨by simp, by simp⟩
    obtain ⟨l, found, changes'⟩ := find_of_write done
    exact ⟨l, found, by simpa using changes.trans changes'⟩
  unfold overwrite
  dsimp only
  split
  next parent _ =>
    refine ends_get_bind ?_
    have made := changesWithin_createFolders parent d
    have kept : (set (createFolders parent d).2 : Action Unit).Ends d
        (fun _ after => after = (createFolders parent d).2) Outside := ends_set rfl
    refine ends_bind kept ?_
    rintro _ _ rfl
    split
    next => exact ends_throw_bind ⟨by simp, by simp⟩
    next => exact written _ made
  next => exact written d (.refl _ _)

/-- **Taking a file away** changes no other file. -/
theorem ends_delete (w : Workspace) (path : String) (d : Disk) :
    (w.delete path).Ends d
      (fun _ after => ∃ l old, d.find (w.pathOf path) = .ok (l, .file old) ∧
        ChangesWithin {l} d after) Outside :=
  ends_change (fun _ done => find_of_remove done) fun _ _ => ⟨by simp, by simp⟩

theorem ends_create (w : Workspace) (path text : String) (d : Disk) :
    (w.create path text).Ends d
      (fun _ after => ∃ l, after.find (w.pathOf path) = .ok (l, .file (.text text)) ∧
        ChangesWithin {l} d after) Outside := by
  unfold create
  refine ends_get_bind ?_
  split
  next => exact ends_throw_bind ⟨by simp, by simp⟩
  next => exact ends_overwrite w path text d

/-- **Saving a session** puts the edited text in the place of the file.  Apart from it, what is changed
has the name of the file with the temporary suffix. -/
theorem ends_save (w : Workspace) (s : Edit.Session) (d : Disk) :
    (w.save s).Ends d
      (fun _ after => ∃ l temporary, after.find (w.pathOf s.path) = .ok (l, .file (.text s.apply)) ∧
        temporary.getLast? = ((w.pathOf s.path).append temporarySuffix).segments.getLast? ∧
        ChangesWithin {temporary, l} d after) Outside := by
  unfold save
  have written : (change (.disk .write s.path) fun d =>
      d.write ((w.pathOf s.path).append temporarySuffix) (.text s.apply)).Ends d
        (fun _ after => ∃ l, after.find ((w.pathOf s.path).append temporarySuffix) =
          .ok (l, .file (.text s.apply)) ∧ ChangesWithin {l} d after) Outside :=
    ends_change (fun _ done => find_of_write done) fun _ _ => ⟨by simp, by simp⟩
  refine ends_bind written ?_
  rintro _ before ⟨temporary, written, changes⟩
  refine ends_get_bind ?_
  split
  next after done =>
    obtain ⟨old, l, content, found, found', changes'⟩ := find_of_rename done
    rw [written] at found
    cases found
    have resolved := (find_eq_ok_file.mp written).1
    refine ends_set ⟨l, temporary, found', getLast?_of_resolve resolved, ?_⟩
    refine (changes.trans changes').mono ?_
    rintro x (rfl | mem)
    · exact .inl rfl
    · exact mem
  next =>
    have cleared : (modify fun d => (d.remove ((w.pathOf s.path).append temporarySuffix)).toOption.getD d
        : Action PUnit).Ends before (fun _ _ => True) Outside := by
      unfold Ends
      exact trivial
    exact ends_bind cleared fun _ _ _ => ends_throw ⟨by simp, by simp⟩

/-- An insertion at a character boundary is accepted. -/
theorem ends_insert {s : Edit.Session} {offset : Nat} (boundary : Text.IsBoundary s.snapshot.toList offset)
    (text : String) (side : Edit.Side) (d : Disk) :
    (insert s offset text side).Ends d
      (fun longer after => after = d ∧ s.insert offset text side = .ok longer) Outside := by
  unfold insert Edit.Session.insert
  rw [dif_pos boundary]
  exact ends_pure ⟨rfl, rfl⟩

end Store.Workspace

end ModelGrid
