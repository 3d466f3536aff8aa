import ModelGrid.Proofs.Component.Generate
import ModelGrid.Proofs.Component.Lookup
import ModelGrid.Proofs.Store.Frame

/-!
# What a run leaves alone

A run changes its own files, the module file, and the temporary files that edits go through.  It leaves
all other files alone, whatever stage it comes to.  A step of the assembly that edits a file and fails
leaves all as the steps before it left it, up to its temporary file; what those steps did stays.

Only the last step of an assembly is no such edit: it takes the old interface away before it writes the
new one.

## Main definitions

* `Edits`: an action edits one file, or leaves all as it was.
* `steps`: the steps of an assembly.
* `Blueprint.touched`: the paths of the files that a run may change.

## Main results

* `sameBut_of_failsAt`: where an assembly fails, and what it leaves.
* `file_iff_of_generate`: what a run leaves alone.
-/

namespace ModelGrid.Component

open Store Store.Action Store.Workspace Disk

variable {w : Workspace} {b : Blueprint} {settings : Settings} {request : Request} {d d' mid : Disk}
  {fault : Fault}

/-! ### Edits of one file -/

/-- The action saves a session of the file, or fails and leaves all as it was, apart from the temporary
file; that the file is missing is a fault only where it is. -/
def Edits (w : Workspace) (path : String) (action : Action Unit) : Prop :=
  ∀ d, action.Ends d (fun _ after => ∃ s, s.path = path ∧ (w.save s).on d = (.ok (), after))
    fun fault after => SameBut (d.reached (w.temporaryOf path)) d after ∧
      (w.hasFile path d = true → ¬ fault.Early)

/-- What is planned for a session without a look at the disk is saved, or is refused. -/
theorem ends_planned {path : String} {plan : Action Edit.Session}
    (planned : plan.Ends d (fun longer after => after = d ∧ longer.path = path)
      fun fault after => after = d ∧ ¬ fault.Early) :
    (plan >>= w.save).Ends d (fun _ after => ∃ s, s.path = path ∧ (w.save s).on d = (.ok (), after))
      fun fault after => SameBut (d.reached (w.temporaryOf path)) d after ∧ ¬ fault.Early := by
  have kept : plan.Ends d (fun longer after => after = d ∧ longer.path = path)
      fun fault after => SameBut (d.reached (w.temporaryOf path)) d after ∧ ¬ fault.Early := by
    refine planned.weaken ?_
    rintro fault _ ⟨rfl, late⟩
    exact ⟨.refl _ _, late⟩
  refine ends_bind kept ?_
  rintro longer _ ⟨rfl, rfl⟩
  exact ends_iff.mpr ⟨fun _ _ saved => ⟨longer, rfl, saved⟩,
    (ends_iff.mp (ends_save_confined w longer _)).2⟩

/-- A session of a file is opened, something is planned for it, and it is saved. -/
theorem Edits.of_session {path : String} {next : Edit.Session → Action Unit}
    (saved : ∀ s d, s.path = path → (next s).Ends d
      (fun _ after => ∃ s, s.path = path ∧ (w.save s).on d = (.ok (), after))
      fun fault after => SameBut (d.reached (w.temporaryOf path)) d after ∧ ¬ fault.Early) :
    Edits w path (w.session path >>= next) := by
  intro d
  have opened : (w.session path).Ends d (fun s after => after = d ∧ s.path = path)
      fun fault after => SameBut (d.reached (w.temporaryOf path)) d after ∧
        (w.hasFile path d = true → ¬ fault.Early) := by
    refine (ends_session_late w path d).weaken ?_
    rintro fault _ ⟨rfl, late⟩
    exact ⟨.refl _ _, late⟩
  refine ends_bind opened ?_
  rintro s _ ⟨rfl, same⟩
  exact (saved s _ same).weaken fun _ _ refused => ⟨refused.1, fun _ => refused.2⟩

/-- **An edit at an anchor.** -/
theorem edits_insertAt (w : Workspace) (path : String) (anchor : Edit.Anchor) (text : String) :
    Edits w path (insertAt w path anchor text) := by
  refine Edits.of_session ?_
  rintro s d rfl
  split
  next => exact ends_throw ⟨.refl _ _, id⟩
  next offset _ => exact ends_planned (ends_insert_late s offset text .right d)

theorem ends_insertAdditions_late (additions : List AngularModule.Addition) (s : Edit.Session)
    (d : Disk) :
    (insertAdditions s additions).Ends d (fun last after => after = d ∧ last.path = s.path)
      fun fault after => after = d ∧ ¬ fault.Early := by
  induction additions generalizing s with
  | nil => exact ends_pure ⟨rfl, rfl⟩
  | cons addition rest ih =>
    unfold insertAdditions
    refine ends_bind (ends_insert_late s addition.offset addition.text .left d) ?_
    rintro longer _ ⟨rfl, same⟩
    refine (ih longer).mono ?_
    rintro last _ ⟨rfl, same'⟩
    exact ⟨rfl, same'.trans same⟩

/-- **A registration.** -/
theorem edits_register (w : Workspace) (b : Blueprint) : Edits w b.moduleFile (register w b) := by
  refine Edits.of_session fun s d same => ends_planned ?_
  exact same ▸ ends_insertAdditions_late _ s d

/-- A session that was saved changed its file and the temporary one. -/
theorem confinedTo_of_save {path : String}
    (saved : ∃ s, s.path = path ∧ (w.save s).on d = (.ok (), d')) :
    ConfinedTo [w.pathOf path, w.temporaryOf path] d d' := by
  obtain ⟨s, rfl, run⟩ := saved
  exact (ends_save_confined w s d).of_on run

theorem Edits.staysIn {path : String} {action : Action Unit} (h : Edits w path action) :
    action.StaysIn [w.pathOf path, w.temporaryOf path] :=
  fun d => ((h d).mono fun _ _ saved => confinedTo_of_save saved).weaken
    fun _ _ refused => refused.1.confinedTo (by simp)

/-! ### The interface -/

/-- A file that is written anew is all that changes, also where the write fails; what was changed before
it, up to the disk `before`, is in the same places. -/
theorem ends_writeAnew_confined (w : Workspace) (path text : String) {before : Disk}
    (so_far : ConfinedTo [w.pathOf path, w.temporaryOf path] d before) :
    (writeAnew w path text).Ends before
      (fun _ after => ConfinedTo [w.pathOf path, w.temporaryOf path] d after)
      fun fault after => ConfinedTo [w.pathOf path, w.temporaryOf path] d after ∧ ¬ fault.Early := by
  have sub : [w.pathOf path] ⊆ [w.pathOf path, w.temporaryOf path] := by simp
  have creating := (ends_create_confined w path "" before).and (ends_create w path "" before)
  refine ends_bind (creating.weaken fun _ _ failed =>
    ⟨so_far.trans (failed.1.1.mono sub), failed.1.2⟩) ?_
  rintro _ created ⟨confined, l, found, _⟩
  have so_far' := so_far.trans (confined.mono sub)
  have there : w.hasFile path created = true := by rw [hasFile, isFile, found]
  refine ends_bind ((ends_session_late w path created).weaken ?_) ?_
  · rintro fault _ ⟨rfl, late⟩
    exact ⟨so_far', late there⟩
  rintro s unchanged ⟨rfl, same⟩
  have planned := ends_insert_late s 0 text .left unchanged
  rw [same] at planned
  have saved := ends_planned (w := w) planned
  refine (saved.mono fun _ _ later => so_far'.trans (confinedTo_of_save later)).weaken ?_
  rintro fault after ⟨undone, late⟩
  exact ⟨so_far'.trans (undone.confinedTo (by simp)), late⟩

/-- **An interface that is written** changes no other file, also where it fails. -/
theorem ends_writeInterface_confined (w : Workspace) (b : Blueprint) (ps : List Model.Property)
    (d : Disk) :
    (writeInterface w b ps).Ends d
      (fun _ after => ConfinedTo [w.pathOf b.interfaceFile, w.temporaryOf b.interfaceFile] d after)
      fun fault after =>
        ConfinedTo [w.pathOf b.interfaceFile, w.temporaryOf b.interfaceFile] d after ∧
          ¬ fault.Early := by
  unfold writeInterface
  refine ends_get_bind ?_
  split
  next =>
    have sub : [w.pathOf b.interfaceFile] ⊆ [w.pathOf b.interfaceFile, w.temporaryOf b.interfaceFile] := by
      simp
    refine ends_bind ((ends_delete_confined w b.interfaceFile d).weaken fun _ _ failed =>
      ⟨failed.1.mono sub, failed.2⟩) ?_
    rintro _ after confined
    exact ends_writeAnew_confined w b.interfaceFile _ (confined.mono sub)
  next => exact ends_writeAnew_confined w b.interfaceFile _ (.refl _ _)

/-! ### Where an assembly fails -/

/-- The steps of an assembly, in order. -/
def steps (w : Workspace) (b : Blueprint) (formatting : Formatting) (ps : List Model.Property) :
    List (Action Unit) :=
  [addColumns w b ps, addRow w b formatting ps, register w b, writeInterface w b ps]

/-- The files that the steps edit, apart from the interface, which is written anew. -/
def Blueprint.edited (b : Blueprint) : List String := [b.serviceFile, b.constantsFile, b.moduleFile]

theorem inTurn_four (first second third fourth : Action Unit) :
    inTurn [first, second, third, fourth] = (do first; second; third; fourth) := by
  have last : (do fourth; pure () : Action Unit) = fourth := bind_pure fourth
  simp only [inTurn, last]

theorem assemble_eq_inTurn (w : Workspace) (b : Blueprint) (formatting : Formatting)
    (ps : List Model.Property) : assemble w b formatting ps = inTurn (steps w b formatting ps) :=
  (inTurn_four _ _ _ _).symm

/-- Each step but the last edits its file. -/
theorem edits_of_getElem? {formatting : Formatting} {ps : List Model.Property} {k : Nat} {path : String}
    {action : Action Unit} (step : (steps w b formatting ps)[k]? = some action)
    (file : b.edited[k]? = some path) : Edits w path action := by
  have paired : List.Forall₂ (Edits w) b.edited ((steps w b formatting ps).take 3) :=
    .cons (edits_insertAt w _ _ _) (.cons (edits_insertAt w _ _ _) (.cons (edits_register w b) .nil))
  obtain ⟨as_many, edits⟩ := List.forall₂_iff_get.mp paired
  obtain ⟨inside, rfl⟩ := List.getElem?_eq_some_iff.mp file
  obtain ⟨_, rfl⟩ := List.getElem?_eq_some_iff.mp step
  have at_step := edits k inside (as_many ▸ inside)
  rwa [List.get_eq_getElem, List.get_eq_getElem, List.getElem_take] at at_step

/-- **An assembly fails** if and only if one of its steps does, on the disk that the steps in front of
it left.  If that step is one of the first three, then all files are as those steps left them, apart from
the temporary file of the one that was edited. -/
theorem sameBut_of_failsAt (w : Workspace) (b : Blueprint) (formatting : Formatting)
    (ps : List Model.Property) (fault : Fault) (d d' : Disk) :
    ((assemble w b formatting ps).on d = (.error fault, d') ↔
      ∃ k mid, FailsAt (steps w b formatting ps) k fault d mid d') ∧
    ∀ k mid path, FailsAt (steps w b formatting ps) k fault d mid d' → b.edited[k]? = some path →
      SameBut (mid.reached (w.temporaryOf path)) mid d' := by
  constructor
  · rw [assemble_eq_inTurn]
    exact inTurn_eq_error_iff
  · rintro k mid path ⟨_, action, step, failed⟩ file
    exact ((ends_iff.mp (edits_of_getElem? step file mid)).2 fault d' failed).1

/-- A component with no properties to show. -/
def bareBlueprint : Blueprint := ⟨"D", "x", "s/x", "app.module.ts"⟩

/-- A workspace in which the function that maps to a row has no block. -/
def bareDisk : Disk :=
  { here := []
    entries :=
      [(["s"], .folder), (["s", "x"], .folder),
       (["s", "x", "x-data.service.ts"], .file (.text "return;")),
       (["s", "x", "x.component.constants.ts"], .file (.text ""))] }

/-- The columns are added in the workspace, and stay. -/
theorem sameBut_of_failsAt_bare :
    ∃ columns row, (assemble ⟨.ofString "/"⟩ bareBlueprint {} []).on bareDisk =
        (.error (.anchorNotFound .arrowBodyStart), row) ∧
      (addColumns ⟨.ofString "/"⟩ bareBlueprint []).on bareDisk = (.ok (), columns) ∧
      SameBut (columns.reached (Workspace.temporaryOf ⟨.ofString "/"⟩ bareBlueprint.constantsFile))
        columns row := by
  obtain ⟨columns, added, row, missed⟩ : ∃ columns,
      (addColumns ⟨.ofString "/"⟩ bareBlueprint []).on bareDisk = (.ok (), columns) ∧
      ∃ row, (addRow ⟨.ofString "/"⟩ bareBlueprint {} []).on columns =
        (.error (.anchorNotFound .arrowBodyStart), row) :=
    ⟨_, eq_mk_of_fst_eq (by decide +kernel), _, eq_mk_of_fst_eq (by decide +kernel)⟩
  have failing : FailsAt (steps ⟨.ofString "/"⟩ bareBlueprint {} []) 1 (.anchorNotFound .arrowBodyStart)
      bareDisk columns row :=
    ⟨on_bind_eq_ok.mpr ⟨(), columns, added, on_pure _ _⟩, _, rfl, missed⟩
  have facts := sameBut_of_failsAt ⟨.ofString "/"⟩ bareBlueprint {} [] (.anchorNotFound .arrowBodyStart)
    bareDisk row
  exact ⟨columns, row, facts.1.mpr ⟨1, columns, failing⟩, added, facts.2 1 columns _ failing rfl⟩

/-! ### What a run may change -/

/-- The paths of the files that a run may change: those of the component, the module file, and the
temporary files of those that are edited. -/
def Blueprint.touched (w : Workspace) (b : Blueprint) : List Path :=
  (b.generated.map Prod.fst ++ [b.moduleFile]).map w.pathOf ++
    (b.edited ++ [b.interfaceFile]).map w.temporaryOf

/-- **The skeletons that are written** change no other files, also where they fail. -/
theorem ends_writeAll_confined (w : Workspace) (folder : String) (p : Values)
    (files : List (String × List Piece)) (d : Disk) :
    (Skeleton.writeAll w folder p files).Ends d
      (fun _ after => ConfinedTo (files.map fun file => w.pathOf (folder ++ "/" ++ file.1)) d after)
      fun fault after => ConfinedTo (files.map fun file => w.pathOf (folder ++ "/" ++ file.1)) d after ∧
        ¬ fault.Early := by
  induction files generalizing d with
  | nil => exact ends_pure (.refl _ _)
  | cons file rest ih =>
    have here : [w.pathOf (folder ++ "/" ++ file.1)] ⊆
        (file :: rest).map fun file => w.pathOf (folder ++ "/" ++ file.1) := by simp
    have behind : (rest.map fun file => w.pathOf (folder ++ "/" ++ file.1)) ⊆
        (file :: rest).map fun file => w.pathOf (folder ++ "/" ++ file.1) := by simp
    unfold Skeleton.writeAll
    refine ends_bind ((ends_overwrite_confined w _ _ d).weaken fun _ _ failed =>
      ⟨failed.1.mono here, failed.2⟩) fun _ mid written => ?_
    refine ends_bind ((ih mid).weaken fun _ _ failed =>
      ⟨(written.mono here).trans (failed.1.mono behind), failed.2⟩) fun _ after later => ?_
    exact ends_pure ((written.mono here).trans (later.mono behind))

theorem staysIn_write (w : Workspace) (b : Blueprint) :
    (Skeleton.write w b.targetFolder b.values).StaysIn (b.touched w) := by
  have sub : ((Skeleton.files b.values).map fun file => w.pathOf (b.targetFolder ++ "/" ++ file.1)) ⊆
      b.touched w := by
    simp [Skeleton.files, Blueprint.touched, Blueprint.generated, Blueprint.classFile,
      Blueprint.markupFile, Blueprint.serviceFile, Blueprint.constantsFile, Blueprint.dashedName,
      Blueprint.values, Values.ofNames, String.append_assoc]
  have confined : (Skeleton.write w b.targetFolder b.values).StaysIn
      ((Skeleton.files b.values).map fun file => w.pathOf (b.targetFolder ++ "/" ++ file.1)) :=
    fun d => (ends_writeAll_confined w _ _ _ d).weaken fun _ _ confined => confined.1
  exact confined.mono sub

/-- An edit of one of the files stays where a run may change files. -/
theorem Edits.staysIn_touched {path : String} {action : Action Unit} (h : Edits w path action)
    (file : path ∈ b.edited) : action.StaysIn (b.touched w) := by
  refine h.staysIn.mono ?_
  simp only [Blueprint.edited, List.mem_cons, List.not_mem_nil, or_false] at file
  rcases file with rfl | rfl | rfl <;>
    simp [Blueprint.touched, Blueprint.generated, Blueprint.edited]

theorem staysIn_assemble (w : Workspace) (b : Blueprint) (formatting : Formatting)
    (ps : List Model.Property) : (assemble w b formatting ps).StaysIn (b.touched w) := by
  have interface : (writeInterface w b ps).StaysIn (b.touched w) := by
    have confined : (writeInterface w b ps).StaysIn
        [w.pathOf b.interfaceFile, w.temporaryOf b.interfaceFile] :=
      fun d => (ends_writeInterface_confined w b ps d).weaken fun _ _ confined => confined.1
    refine confined.mono ?_
    simp [Blueprint.touched, Blueprint.generated, Blueprint.edited]
  refine staysIn_bind ((edits_insertAt w _ _ _).staysIn_touched (by simp [Blueprint.edited])) fun _ => ?_
  refine staysIn_bind ((edits_insertAt w _ _ _).staysIn_touched (by simp [Blueprint.edited])) fun _ => ?_
  refine staysIn_bind ((edits_register w b).staysIn_touched (by simp [Blueprint.edited])) fun _ => ?_
  exact interface

/-- A run that does not settle its blueprint leaves the disk as it is; any other goes on there. -/
theorem on_generate (w : Workspace) (settings : Settings) (request : Request) (d : Disk) :
    (∃ fault, ((settle w settings request).on d).1 = .error fault ∧
      (generate w settings request).on d = (.error fault, d)) ∨
    ∃ b, ((settle w settings request).on d).1 = .ok b ∧
      (generate w settings request).on d = ((do
        let properties ← readModel request.modelFile
        let files ← Skeleton.write w b.targetFolder b.values
        assemble w b settings.formatting properties
        return Report.mk b properties files) : Action Report).on d := by
  unfold generate
  rw [on_bind]
  rcases settled : (settle w settings request).on d with ⟨fault | b, after⟩
  · obtain rfl := (readsOnly_settle w settings request).eq settled
    exact .inl ⟨fault, rfl, rfl⟩
  · obtain rfl := (readsOnly_settle w settings request).eq settled
    exact .inr ⟨b, rfl, rfl⟩

/-- **What a run leaves alone.**  Whether it succeeds or fails, and at whatever stage, each file that is
none of those that its blueprint tells, if it has one, is there afterwards if and only if it was there
before, and holds the same.  The paths of the blueprint are followed on the disk that is left: a path
that leads somewhere before the run leads there still, and one that did not may do so through a folder
that the run has made. -/
theorem file_iff_of_generate {l : Location}
    (apart : ∀ b, ((settle w settings request).on d).1 = .ok b → ∀ p ∈ b.touched w,
      ((generate w settings request).on d).2.resolve p ≠ .ok (.named l)) (content : Content) :
    entry? ((generate w settings request).on d).2 l = some (.file content) ↔
      d.entry? l = some (.file content) := by
  rcases on_generate w settings request d with ⟨fault, _, run⟩ | ⟨b, settled, run⟩
  · rw [run]
  · have stays : ((do
        let properties ← readModel request.modelFile
        let files ← Skeleton.write w b.targetFolder b.values
        assemble w b settings.formatting properties
        return Report.mk b properties files) : Action Report).StaysIn (b.touched w) := by
      refine staysIn_bind (.of_readsOnly (readsOnly_readModel _)) fun properties => ?_
      refine staysIn_bind (staysIn_write w b) fun files => ?_
      refine staysIn_bind (staysIn_assemble w b settings.formatting properties) fun _ => ?_
      exact .of_readsOnly (readsOnly_pure _)
    have confined := stays.confinedTo d
    rw [← run] at confined
    exact confined.file_iff (apart b settled)

/-- The workspace file of the project is not changed. -/
theorem file_iff_of_generate_dotted :
    let w : Workspace := ⟨.ofString "/"⟩
    let after := ((generate w {} dottedRequest).on dottedDisk).2
    ∀ content, after.entry? ["angular.json"] = some (.file content) ↔
      dottedDisk.entry? ["angular.json"] = some (.file content) := by
  intro w after content
  refine file_iff_of_generate (fun b settled p mem leads => ?_) content
  have known := congrArg Prod.fst settle_dotted
  rw [settled] at known
  cases known
  have names : ∀ p ∈ dottedBlueprint.touched w, p.segments.getLast? ≠ some "angular.json" := by
    decide +kernel
  exact names p mem (getLast?_of_resolve leads).symm

end ModelGrid.Component
